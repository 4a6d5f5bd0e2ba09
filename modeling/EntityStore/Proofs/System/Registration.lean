import EntityStore.Proofs.System.Known

/-! # Registered kinds

A store holds kinds by their names, a registry remembers kinds by name and type.  As long as a
registry is used with one store only, the two agree: what is remembered is what the store holds,
whatever else is registered behind the back of the registry.

* `Attempt`                   a call to register a kind, with what it finds
* `Attempt.out_cases`         what an attempt can do
* `RegistryCall.attempts`     the attempts that a call to a registry makes
* `RegistryCall.linked`       they account for all that the call changes
* `System.registers_run`      registries and store agree in every state of a run
* `System.kind?_of_created`   the kind of a collection is held by the store
* `System.registration_exact` what is registered, and by whom, in every run -/

namespace EntityStore

/-! ## Kinds of a store -/

namespace Store

/-- What a successful registration does to the kinds of a store. -/
theorem kind?_register {store store' : Store} {kind : Kind} (h : store.register kind = .ok store') :
    store.kind? kind.name = none ∧ ∀ name,
      store'.kind? name = if kind.name = name then some kind else store.kind? name := by
  unfold register at h
  split at h
  · cases h
  · -- the name was not registered, so no kind stood under it
    next hfree =>
    obtain rfl := Except.ok.inj h
    rw [isRegistered_eq, Bool.not_eq_true, Option.isSome_eq_false_iff,
      Option.isNone_iff_eq_none] at hfree
    refine ⟨hfree, fun name => ?_⟩
    rw [kind?, Tables.register, Std.ExtTreeMap.getElem?_insert]
    simp only [Std.LawfulEqOrd.compare_eq_iff_eq]
    split <;> rfl

/-- Every kind of the first store is one of the second. -/
def Keeps (store store' : Store) : Prop :=
  ∀ name kind, store.kind? name = some kind → store'.kind? name = some kind

/-- The kinds of a store are held under their names. -/
def Named (store : Store) : Prop := ∀ name kind, store.kind? name = some kind → kind.name = name

variable {store store' : Store} {kind : Kind}

/-- A store keeps its own kinds. -/
theorem Keeps.refl (store : Store) : store.Keeps store := fun _ _ h => h

/-- What is kept twice is kept. -/
theorem Keeps.trans {store'' : Store} (h : store.Keeps store') (h' : store'.Keeps store'') :
    store.Keeps store'' :=
  fun name kind hk => h' name kind (h name kind hk)

/-- A store with the same kinds keeps them. -/
theorem keeps_of_eq (h : ∀ name, store'.kind? name = store.kind? name) : store.Keeps store' :=
  fun name _ hk => (h name).trans hk

/-- Stores with the same kinds list them under the same names. -/
theorem named_of_eq (h : ∀ name, store'.kind? name = store.kind? name) (hnamed : store.Named) :
    store'.Named :=
  fun name kind hk => hnamed name kind ((h name).symm.trans hk)

/-- A registration takes no kind away. -/
theorem keeps_register (h : store.register kind = .ok store') : store.Keeps store' := by
  obtain ⟨hfree, hkind⟩ := kind?_register h
  intro name k hk
  rw [hkind, if_neg]
  · exact hk
  · rintro rfl
    rw [hfree] at hk
    cases hk

/-- A kind is registered under its own name. -/
theorem named_register (h : store.register kind = .ok store') (hnamed : store.Named) :
    store'.Named := by
  intro name k hk
  rw [(kind?_register h).2] at hk
  split at hk
  · next hname => exact Option.some.inj hk ▸ hname
  · exact hnamed name k hk

/-- A registration fails if the name is taken. -/
theorem register_error_iff {e : Error} :
    store.register kind = .error e ↔
      store.isRegistered kind.name = true ∧ e = .duplicateKind kind.name := by
  -- the only reason to refuse a kind is its name
  unfold register
  split
  · next h => simp [h, eq_comm]
  · next h => simp [h]

/-- A store lists the kinds that it holds under their names. -/
theorem mem_kinds_iff (hnamed : store.Named) {kind : Kind} :
    kind ∈ store.kinds ↔ store.kind? kind.name = some kind := by
  rw [kinds, List.mem_map]
  constructor
  · -- a kind that is listed stands under its own name
    rintro ⟨⟨name, kind⟩, hmem, rfl⟩
    have hkind : store.kind? name = some kind :=
      Std.ExtTreeMap.mem_toList_iff_getElem?_eq_some.1 hmem
    rwa [hnamed name kind hkind]
  · intro h
    exact ⟨(kind.name, kind), Std.ExtTreeMap.mem_toList_iff_getElem?_eq_some.2 h, rfl⟩

/-- There is a table just for the names of the registered kinds. -/
theorem exists_table_iff (hnamed : store.Named) {name : String} :
    (∃ t, store.table name = .ok t) ↔ ∃ kind ∈ store.kinds, kind.name = name := by
  simp only [mem_kinds_iff hnamed]
  rcases store.table_eq name with ⟨t, -, htable, hregistered⟩ | ⟨htable, hfree⟩
  · rw [isRegistered_eq] at hregistered
    obtain ⟨kind, hkind⟩ := Option.isSome_iff_exists.1 hregistered
    have hname := hnamed name kind hkind
    exact iff_of_true ⟨t, htable⟩ ⟨kind, hname.symm ▸ hkind, hname⟩
  · -- a name without a table is that of no kind
    refine iff_of_false ?_ ?_
    · rintro ⟨t, h⟩
      cases htable.symm.trans h
    · rintro ⟨kind, hkind, rfl⟩
      rw [isRegistered_eq, hkind] at hfree
      cases hfree

end Store

/-! ## Attempts -/

/-- A call to register a kind, with the registry and the store that it finds. -/
structure Attempt where
  kind : Kind
  registry : Registry
  store : Store

/-- What a registry remembers is what the store holds. -/
def Registry.Agrees (r : Registry) (store : Store) : Prop :=
  ∀ kind, r.isRegistered kind = true → store.kind? kind.name = some kind

namespace Attempt

/-- What an attempt leaves. -/
def out (a : Attempt) : Registration Store Bool := a.registry.register a.kind a.store

/-- Whether an attempt says that it has registered its kind. -/
def performs (a : Attempt) : Bool :=
  match a.out.result with
  | .ok performed => performed
  | .error _ => false

/-- An attempt performs if it is answered with true. -/
theorem performs_iff {a : Attempt} : a.performs = true ↔ a.out.result = .ok true := by
  unfold performs
  split
  · next performed h => simp [h]
  · next e h => simp [h]

/-- What an attempt can do. -/
theorem out_cases (a : Attempt) :
    (a.registry.isRegistered a.kind = true ∧ a.out = ⟨.ok false, a.registry, a.store⟩) ∨
      a.registry.isRegistered a.kind = false ∧
        ((∃ store, a.store.register a.kind = .ok store ∧
            a.out = ⟨.ok true, ⟨a.registry.registered.insert a.kind⟩, store⟩) ∨
          ∃ e, a.store.register a.kind = .error e ∧ a.out = ⟨.error e, a.registry, a.store⟩) := by
  rw [out, Registry.register]
  cases hrecorded : a.registry.isRegistered a.kind with
  | true => exact .inl ⟨rfl, rfl⟩
  | false =>
    refine .inr ⟨rfl, ?_⟩
    cases hregister : a.store.register a.kind with
    | ok store => exact .inl ⟨store, rfl, by simp [Registrar.register, hregister]⟩
    | error e => exact .inr ⟨e, rfl, by simp [Registrar.register, hregister]⟩

/-- A registry remembers a kind that was added and those that it has remembered. -/
theorem isRegistered_insert (r : Registry) (kind kind' : Kind) :
    (Registry.mk (r.registered.insert kind)).isRegistered kind' = true ↔
      kind = kind' ∨ r.isRegistered kind' = true := by
  rw [Registry.isRegistered, Registry.isRegistered, Std.ExtTreeSet.contains_insert,
    Bool.or_eq_true, beq_iff_eq, Std.LawfulEqOrd.compare_eq_iff_eq]

/-- What the answer of an attempt means, where the registry agrees with the store. -/
structure Exact (a : Attempt) : Prop where
  performed_iff : a.out.result = .ok true ↔ a.store.register a.kind = .ok a.out.registrar
  performed_iff_free : a.out.result = .ok true ↔ a.store.isRegistered a.kind.name = false
  repeated_iff : a.out.result = .ok false ↔ a.registry.isRegistered a.kind = true
  of_ok : ∀ performed, a.out.result = .ok performed →
    a.out.registry.isRegistered a.kind = true ∧ a.out.registrar.kind? a.kind.name = some a.kind
  of_error : ∀ e, a.out.result = .error e → e = .duplicateKind a.kind.name
  unchanged : a.out.result ≠ .ok true → a.out.registry = a.registry ∧ a.out.registrar = a.store

variable {a : Attempt}

/-- The store of an attempt stays as it is, or has the kind registered with it. -/
theorem store_cases (a : Attempt) :
    a.out.registrar = a.store ∨ a.store.register a.kind = .ok a.out.registrar := by
  rcases a.out_cases with ⟨-, hout⟩ | ⟨-, ⟨store, hregister, hout⟩ | ⟨e, -, hout⟩⟩
  · exact .inl (by rw [hout])
  · exact .inr (by rw [hout, hregister])
  · exact .inl (by rw [hout])

/-- An attempt takes no kind away. -/
theorem keeps_out (a : Attempt) : a.store.Keeps a.out.registrar := by
  rcases a.store_cases with h | h
  · rw [h]
    exact .refl a.store
  · exact Store.keeps_register h

/-- An attempt leaves every kind under its own name. -/
theorem named_out (h : a.store.Named) : a.out.registrar.Named := by
  rcases a.store_cases with hout | hregister
  · rwa [hout]
  · exact Store.named_register hregister h

/-- An attempt keeps a registry and a store in agreement. -/
theorem agrees_out (h : a.registry.Agrees a.store) : a.out.registry.Agrees a.out.registrar := by
  rcases a.out_cases with ⟨-, hout⟩ | ⟨-, ⟨store, hregister, hout⟩ | ⟨e, -, hout⟩⟩
  · rwa [hout]
  · rw [hout]
    intro kind hkind
    -- the kind that is new has just been registered, the others are still held
    rcases (isRegistered_insert ..).1 hkind with rfl | hkind
    · rw [(Store.kind?_register hregister).2, if_pos rfl]
    · exact Store.keeps_register hregister _ _ (h kind hkind)
  · rwa [hout]

/-- What a registry that agrees with the store answers is exact. -/
theorem exact_of_agrees (h : a.registry.Agrees a.store) : a.Exact := by
  -- the kind is known to the registry, or free in the store, or taken there
  rcases a.out_cases with
    ⟨hrecorded, hout⟩ | ⟨hnew, ⟨store, hregister, hout⟩ | ⟨e, hregister, hout⟩⟩
  · -- the store holds the kind, and refuses to register it again
    have hkind := h a.kind hrecorded
    have htaken : a.store.isRegistered a.kind.name = true := by
      rw [Store.isRegistered_eq, hkind, Option.isSome_some]
    have hrefused := Store.register_error_iff.2 ⟨htaken, rfl⟩
    constructor <;> simp [hout, hrecorded, hkind, htaken, hrefused]
  · obtain ⟨hfree, hkind⟩ := Store.kind?_register hregister
    have hunregistered : a.store.isRegistered a.kind.name = false := by
      rw [Store.isRegistered_eq, hfree, Option.isSome_none]
    constructor <;> simp [hout, hnew, hregister, hunregistered, hkind, isRegistered_insert]
  · obtain ⟨htaken, rfl⟩ := Store.register_error_iff.1 hregister
    constructor <;> simp [hout, hnew, hregister, htaken]

end Attempt

/-! ## Attempts one after the other -/

/-- Attempts that are made one after the other lead from a registry and a store to others. -/
inductive Linked : Registry → Store → List Attempt → Registry → Store → Prop where
  | nil (r : Registry) (store : Store) : Linked r store [] r store
  | cons (a : Attempt) {as : List Attempt} {r' : Registry} {store' : Store}
      (h : Linked a.out.registry a.out.registrar as r' store') :
      Linked a.registry a.store (a :: as) r' store'

/-- The names of the kinds that some attempts register. -/
def namesTaken (as : List Attempt) : List String :=
  (as.filter Attempt.performs).map fun a => a.kind.name

/-- Attempts take the names that each part of them takes. -/
theorem namesTaken_append (as as' : List Attempt) :
    namesTaken (as ++ as') = namesTaken as ++ namesTaken as' := by
  simp only [namesTaken, List.filter_append, List.map_append]

/-- The second store is the first one with kinds registered under names that were free, each of
    them once. -/
def Store.Takes (store store' : Store) (names : List String) : Prop :=
  store.Keeps store' ∧ names.Nodup ∧
    ∀ name ∈ names, store.kind? name = none ∧ store'.kind? name ≠ none

namespace Store

variable {store store' store'' : Store} {names names' : List String}

/-- A store that keeps its kinds takes no names by that. -/
theorem takes_nil (h : store.Keeps store') : store.Takes store' [] :=
  ⟨h, .nil, nofun⟩

/-- A name that is free behind was free in front. -/
theorem Keeps.eq_none (h : store.Keeps store') {name : String} (hfree : store'.kind? name = none) :
    store.kind? name = none := by
  cases hk : store.kind? name with
  | none => rfl
  | some kind => cases (h name kind hk).symm.trans hfree

/-- A name that was taken once is not free for a second time. -/
theorem Takes.append (h : store.Takes store' names) (h' : store'.Takes store'' names') :
    store.Takes store'' (names ++ names') := by
  obtain ⟨hkeeps, hnodup, hnames⟩ := h
  obtain ⟨hkeeps', hnodup', hnames'⟩ := h'
  refine ⟨hkeeps.trans hkeeps', ?_, fun name hname => ?_⟩
  · rw [List.nodup_append]
    -- the store between the two holds the names of the first part
    refine ⟨hnodup, hnodup', fun name hname name' hname' heq => ?_⟩
    exact (hnames name hname).2 (heq ▸ (hnames' name' hname').1)
  · rcases List.mem_append.1 hname with hname | hname
    · obtain ⟨hfree, htaken⟩ := hnames name hname
      exact ⟨hfree, fun hnone => htaken (hkeeps'.eq_none hnone)⟩
    · obtain ⟨hfree, htaken⟩ := hnames' name hname
      exact ⟨hkeeps.eq_none hfree, htaken⟩

end Store

/-- An attempt takes the name of its kind, or none. -/
theorem Attempt.takes_out (a : Attempt) : a.store.Takes a.out.registrar (namesTaken [a]) := by
  rw [namesTaken, List.filter_singleton]
  cases hperforms : a.performs with
  | false => exact Store.takes_nil a.keeps_out
  | true =>
    refine ⟨a.keeps_out, List.pairwise_singleton .., fun name hname => ?_⟩
    obtain rfl := List.mem_singleton.1 hname
    have hresult := Attempt.performs_iff.1 hperforms
    rcases a.out_cases with ⟨-, hout⟩ | ⟨-, ⟨store, hregister, hout⟩ | ⟨e, -, hout⟩⟩
    · rw [hout] at hresult
      cases hresult
    · -- the name was free, and stands for the kind now
      obtain ⟨hfree, hkind⟩ := Store.kind?_register hregister
      rw [hout, hkind, if_pos rfl]
      exact ⟨hfree, nofun⟩
    · rw [hout] at hresult
      cases hresult

namespace Linked

variable {r r' : Registry} {store store' : Store} {as : List Attempt}

/-- Linked attempts take their names. -/
theorem takes (h : Linked r store as r' store') : store.Takes store' (namesTaken as) := by
  -- along the attempts, which take their names one after the other
  induction h with
  | nil r store => exact Store.takes_nil (.refl store)
  | cons a _ ih => exact namesTaken_append [a] _ ▸ a.takes_out.append ih

/-- Linked attempts leave every kind under its own name. -/
theorem named (h : Linked r store as r' store') (hnamed : store.Named) : store'.Named := by
  induction h with
  | nil r store => exact hnamed
  | cons a _ ih => exact ih (a.named_out hnamed)

/-- A registry agrees with the store behind each of some linked attempts. -/
theorem agrees (h : Linked r store as r' store') (hagrees : r.Agrees store) :
    r'.Agrees store' ∧ ∀ a ∈ as, a.registry.Agrees a.store := by
  induction h with
  | nil r store => exact ⟨hagrees, nofun⟩
  | cons a _ ih =>
    obtain ⟨hbehind, hattempts⟩ := ih (a.agrees_out hagrees)
    exact ⟨hbehind, List.forall_mem_cons.2 ⟨hagrees, hattempts⟩⟩

end Linked

/-! ## Calls to a registry -/

/-- The attempts to register some kinds, up to the first that is refused. -/
def Registry.attemptsAll (r : Registry) (store : Store) : List Kind → List Attempt
  | [] => []
  | kind :: kinds =>
    match r.register kind store with
    | ⟨.ok _, r', store'⟩ => ⟨kind, r, store⟩ :: r'.attemptsAll store' kinds
    -- nothing is tried behind a kind that is refused
    | ⟨.error _, _, _⟩ => [⟨kind, r, store⟩]

/-- The attempts to register the kinds that a text lists. -/
def Setup.attemptsList (setup : Setup) (text : Bytes) (r : Registry) (store : Store) :
    List Attempt :=
  match Registry.kindsOfList setup.catalog text with
  | .error _ => []
  | .ok kinds => r.attemptsAll store kinds

/-- The attempts to register the kinds that a file lists. -/
def Setup.attemptsFile (setup : Setup) (files : FileTree) (path : String) (r : Registry)
    (store : Store) : List Attempt :=
  match files.find path with
  | .error _ => []
  | .ok file =>
    match file.content with
    | .error _ => []
    | .ok text => setup.attemptsList text r store

/-- The attempts to register a kind that a call to a registry makes. -/
def RegistryCall.attempts {β : Type} : RegistryCall β → Registry → Store → List Attempt
  | .register kind, r, store => [⟨kind, r, store⟩]
  | .registerList setup text, r, store => setup.attemptsList text r store
  | .registerFile setup files path, r, store => setup.attemptsFile files path r store
  | .build setup files, r, store =>
    -- the file counts only in a configuration that is valid
    match setup.config.validate with
    | .error _ => []
    | .ok () =>
      match setup.config.entities with
      | none => []
      | some path => setup.attemptsFile files path r store
  | .create type _, r, store => [⟨type.kind, r, store⟩]
  | _, _, _ => []

/-- Kinds that are registered one after the other are attempts that are linked. -/
theorem Registry.linked_all (kinds : List Kind) (r : Registry) (store : Store) :
    Linked r store (r.attemptsAll store kinds) (r.registerAll store kinds).registry
      (r.registerAll store kinds).registrar := by
  -- along the kinds; an attempt that is refused is the last one
  induction kinds generalizing r store with
  | nil => exact .nil r store
  | cons kind kinds ih =>
    have hout : Attempt.out ⟨kind, r, store⟩ = r.register kind store := rfl
    rcases h : r.register kind store with ⟨e | performed, r', store'⟩
    · simp only [attemptsAll, registerAll, h]
      refine .cons ⟨kind, r, store⟩ ?_
      rw [hout, h]
      exact .nil r' store'
    · simp only [attemptsAll, registerAll, h]
      refine .cons ⟨kind, r, store⟩ ?_
      rw [hout, h]
      exact ih r' store'

/-- The attempts of a list are linked. -/
theorem Setup.linked_list (setup : Setup) (text : Bytes) (r : Registry) (store : Store) :
    Linked r store (setup.attemptsList text r store) (setup.registerList text r store).registry
      (setup.registerList text r store).registrar := by
  rw [attemptsList, registerList, Registry.registerList]
  cases Registry.kindsOfList setup.catalog text with
  | error e => exact .nil r store
  | ok kinds =>
    have hall := r.linked_all kinds store
    -- refused or not, the list leaves what its attempts leave
    dsimp only
    rcases h : r.registerAll store kinds with ⟨e | ⟨⟩, r', store'⟩
    · rwa [h] at hall
    · rwa [h] at hall

/-- The attempts of a file are linked. -/
theorem Setup.linked_file (setup : Setup) (files : FileTree) (path : String) (r : Registry)
    (store : Store) :
    Linked r store (setup.attemptsFile files path r store)
      (setup.registerFile files path r store).registry
      (setup.registerFile files path r store).registrar := by
  rw [attemptsFile, registerFile]
  cases files.find path with
  -- a file that cannot be read attempts nothing
  | error e => exact .nil r store
  | ok file =>
    dsimp only
    cases file.content with
    | error e => exact .nil r store
    | ok text => exact setup.linked_list text r store

/-- The attempts of a call account for all that it does to the registry and to the store. -/
theorem RegistryCall.linked {β : Type} (c : RegistryCall β) (r : Registry) (store : Store) :
    Linked r store (c.attempts r store) (c.run r store).registry (c.run r store).registrar := by
  cases c with
  | register kind => exact .cons ⟨kind, r, store⟩ (.nil ..)
  | registerList setup text => exact setup.linked_list text r store
  | registerFile setup files path => exact setup.linked_file files path r store
  -- building attempts nothing before the configuration is in order
  | build setup files =>
    simp only [attempts, run, Setup.build]
    cases setup.config.validate with
    | error e => exact .nil r store
    | ok _ =>
      -- a configuration without a list of kinds attempts nothing
      cases setup.config.entities with
      | none => exact .nil r store
      | some path => exact setup.linked_file files path r store
  | create type setup => exact .cons ⟨type.kind, r, store⟩ (.nil ..)
  | _ => exact .nil r store

/-! ## Runs -/

namespace System

variable {w : System}

/-- The kinds of the store are held under their names, and what the registries remember is what
    the store holds. -/
structure Agrees (w : System) : Prop where
  within : w.Within
  named : w.store.Named
  agrees : ∀ n, (w.registries n).Agrees w.store

/-- The attempts to register a kind that a call makes. -/
def attemptsOf (w : System) (r : Request) : List Attempt :=
  match r.call with
  | .registry n c => c.attempts (w.registries n) w.store
  | _ => []

/-- The attempts to register a kind in the course of several calls. -/
def attempts (w : System) : List Request → List Attempt
  | [] => []
  | r :: rs => w.attemptsOf r ++ (w.step r).attempts rs

/-- Every run starts with registries that agree with the store. -/
theorem agrees_init : init.Agrees where
  within := within_init
  named name kind h := by
    simp [init, Store.kind?, Store.empty, Tables.empty] at h
  agrees n kind h := by
    simp [init, Registry.isRegistered, Registry.empty] at h

/-- What the attempts between two states have made of the one that agreed. -/
structure Registers (w w' : System) (as : List Attempt) : Prop where
  agrees : w'.Agrees
  found : ∀ a ∈ as, a.registry.Agrees a.store
  takes : w.store.Takes w'.store (namesTaken as)

/-- A call that leaves the kinds of the store and the registries alone. -/
private theorem registers_of_eq {w' : System} (h : w.Agrees) (hwithin : w'.Within)
    (hregistries : w'.registries = w.registries)
    (hkind : ∀ name, w'.store.kind? name = w.store.kind? name) : w.Registers w' [] where
  agrees := ⟨hwithin, Store.named_of_eq hkind h.named, fun n kind hk =>
    (hkind _).trans (h.agrees n kind (hregistries ▸ hk))⟩
  found := nofun
  takes := Store.takes_nil (Store.keeps_of_eq hkind)

/-- A kind is registered behind the back of the registries. -/
private theorem registers_store {β : Type} (h : w.Agrees) (c : StoreCall β)
    (hwithin : System.Within { w with store := (c.run w.store).2 }) :
    w.Registers { w with store := (c.run w.store).2 } [] := by
  cases c with
  | register kind =>
    rcases w.store.register_cases kind with hregister | hstays
    · -- the store has one more kind, and keeps those that the registries know
      have hkeeps := Store.keeps_register hregister
      exact ⟨⟨hwithin, Store.named_register hregister h.named, fun n kind hk =>
        hkeeps _ _ (h.agrees n kind hk)⟩, nofun, Store.takes_nil hkeeps⟩
    · refine registers_of_eq h hwithin rfl fun name => ?_
      exact congrArg (Store.kind? · name) hstays
  | _ => exact registers_of_eq h hwithin rfl fun _ => rfl

/-- A registry goes on together with the store, and the others still agree with it. -/
private theorem registers_registry {β : Type} (h : w.Agrees) (n : Nat) (c : RegistryCall β)
    (hwithin : (w.putRegistry n (c.run (w.registries n) w.store).registry
      (c.run (w.registries n) w.store).registrar).Within) :
    w.Registers (w.putRegistry n (c.run (w.registries n) w.store).registry
      (c.run (w.registries n) w.store).registrar) (c.attempts (w.registries n) w.store) := by
  have hlinked := c.linked (w.registries n) w.store
  obtain ⟨hbehind, hfound⟩ := hlinked.agrees (h.agrees n)
  refine ⟨⟨hwithin, hlinked.named h.named, fun m => ?_⟩, hfound, hlinked.takes⟩
  simp only [putRegistry]
  split
  · exact hbehind
  · exact fun kind hk => hlinked.takes.1 _ _ (h.agrees m kind hk)

/-- Every call accounts for the kinds by its attempts. -/
theorem registers_step (h : w.Agrees) (r : Request) :
    w.Registers (w.step r) (w.attemptsOf r) := by
  have hwithin := within_step h.within r
  obtain ⟨c⟩ := r
  -- only calls to the store and to registries attempt anything
  cases c with
  | store c => exact registers_store h c hwithin
  | registry n c => exact registers_registry h n c hwithin
  | access a => exact registers_of_eq h hwithin rfl (a.kind?_alone w.store)
  | findAll c =>
    exact registers_of_eq h hwithin rfl ((Access.find c none fun _ => true).kind?_alone w.store)
  | enter n origin =>
    cases hn : w.clients n with
    | some c =>
      have hcall : w.call? (.enter n origin) = none := by simp only [call?, hn]
      rw [step_of_none hcall]
      exact registers_of_eq h h.within rfl fun _ => rfl
    | none =>
      have hcall : w.call? (.enter n origin) =
          some (.ok (), w.put n (origin.enter w.store).1 (origin.enter w.store).2) := by
        simp only [call?, hn]
      rw [step_of_some hcall] at hwithin ⊢
      -- opening a session leaves the kinds as they are
      refine registers_of_eq h hwithin rfl fun name => ?_
      cases origin <;> rfl
  | act n a =>
    cases hcall : w.call? (.act n a) with
    | none =>
      rw [step_of_none hcall]
      exact registers_of_eq h h.within rfl fun _ => rfl
    | some out =>
      rw [step_of_some hcall] at hwithin ⊢
      simp only [call?] at hcall
      split at hcall
      · cases hcall
      · next c hc =>
        obtain ⟨moved, hmoved, rfl⟩ := Option.map_eq_some_iff.1 hcall
        have hsession := h.within n
        rw [session?_eq hc] at hsession
        exact registers_of_eq h hwithin rfl ((a.moves hmoved).kind?_eq hsession)

/-- The attempts of two runs account for the kinds together. -/
theorem Registers.trans {w' w'' : System} {as as' : List Attempt} (h : w.Registers w' as)
    (h' : w'.Registers w'' as') : w.Registers w'' (as ++ as') where
  agrees := h'.agrees
  found := List.forall_mem_append.2 ⟨h.found, h'.found⟩
  takes := namesTaken_append as as' ▸ h.takes.append h'.takes

/-- Every run accounts for the kinds by its attempts. -/
theorem registers_run (h : w.Agrees) (rs : List Request) :
    w.Registers (w.run rs) (w.attempts rs) := by
  induction rs generalizing w with
  | nil => exact registers_of_eq h h.within rfl fun _ => rfl
  | cons r rs ih =>
    have hstep := registers_step h r
    exact hstep.trans (ih hstep.agrees)

/-! ## Collections -/

/-- A collection that has been created is one of a kind that the store holds. -/
theorem kind?_of_created {α : Type} (h : w.Agrees) {n : Nat} {type : EntityType α} {setup : Setup}
    {c : Collection α}
    (hcreated : (Collection.create type setup (w.registries n) w.store).result = .ok c) :
    (w.step ⟨.registry n (.create type setup)⟩).store.kind? c.type.kindName = some type.kind := by
  have hexact : Attempt.Exact ⟨type.kind, w.registries n, w.store⟩ :=
    Attempt.exact_of_agrees (h.agrees n)
  cases hresult : ((w.registries n).register type.kind w.store).result with
  | error e =>
    rw [Collection.create, hresult] at hcreated
    cases hcreated
  -- the kind was registered, now or before
  | ok performed =>
    rw [Collection.create, hresult] at hcreated
    cases hcreated
    exact (hexact.of_ok performed hresult).2

/-- The registries and the store of a run.  A kind that is remembered is the one that the store
    holds under its name, so no two of them share a name, and there is a table for each kind
    that the store holds.  A name is taken once.  Every attempt says what it has done, and the
    attempts of a call account for all that the call does.  A collection that has been created
    never finds its kind missing. -/
theorem registration_exact (rs : List Request) :
    (∀ n kind, ((init.run rs).registries n).isRegistered kind = true →
        (init.run rs).store.kind? kind.name = some kind) ∧
      (∀ n m kind kind', ((init.run rs).registries n).isRegistered kind = true →
        ((init.run rs).registries m).isRegistered kind' = true → kind.name = kind'.name →
          kind = kind') ∧
      (∀ name, (∃ t, (init.run rs).store.table name = .ok t) ↔
        ∃ kind ∈ (init.run rs).store.kinds, kind.name = name) ∧
      (namesTaken (init.attempts rs)).Nodup ∧
      (∀ a ∈ init.attempts rs, a.Exact) ∧
      (∀ (n : Nat) (β : Type) (c : RegistryCall β),
        Linked ((init.run rs).registries n) (init.run rs).store
          (c.attempts ((init.run rs).registries n) (init.run rs).store)
          (c.run ((init.run rs).registries n) (init.run rs).store).registry
          (c.run ((init.run rs).registries n) (init.run rs).store).registrar) ∧
      ∀ (α : Type) (type : EntityType α) (setup : Setup) (c : Collection α) (n : Nat)
        (before after : List Request),
        rs = before ++ ⟨.registry n (.create type setup)⟩ :: after →
        (Collection.create type setup ((init.run before).registries n)
          (init.run before).store).result = .ok c →
        ∀ (β : Type) (call : Call β) (answer : Except Error β) (w' : System),
          call.collectionKind? = some c.type.kindName →
          (init.run rs).call? call = some (answer, w') →
          ∀ name, answer ≠ .error (.kindNotRegistered name) := by
  have hrun := registers_run agrees_init rs
  refine ⟨hrun.agrees.agrees, fun n m kind kind' hk hk' hname => ?_,
    fun name => Store.exists_table_iff hrun.agrees.named, hrun.takes.2.1,
    fun a ha => Attempt.exact_of_agrees (hrun.found a ha), fun n β c => c.linked _ _, ?_⟩
  · -- the store holds one kind under the name
    have hheld := hrun.agrees.agrees n kind hk
    rw [hname, hrun.agrees.agrees m kind' hk'] at hheld
    exact (Option.some.inj hheld).symm
  · rintro α type setup c n before after rfl hcreated β call answer w' hkind hcall
    have hbefore := (registers_run agrees_init before).agrees
    have hstep := registers_step hbefore ⟨.registry n (.create type setup)⟩
    -- the kind was held when the collection had been created, and stays
    have hheld := (registers_run hstep.agrees after).takes.1 _ _ (kind?_of_created hbefore hcreated)
    rw [run_append, run_cons] at hcall
    refine known_call hcall hkind ?_
    rw [Store.isRegistered_eq, hheld, Option.isSome_some]

/-- Accounts, of a kind that another type may share the name with. -/
def accounts : EntityType Json :=
  Schema.entityType ⟨⟨"Account", "bank::Account"⟩, [("id", .text)]⟩

/-- One kind is registered behind the back of the registries, and one by two of them; then a
    list names a kind that is registered and one that is not, and another type comes with a name
    that is taken. -/
def crowded : List Request :=
  [⟨.store (.register Note.type.kind)⟩, ⟨.registry 0 (.register Note.type.kind)⟩,
    ⟨.registry 0 (.create accounts {})⟩, ⟨.registry 1 (.register accounts.kind)⟩,
    ⟨.registry 0 (.registerList ⟨.ofList [accounts.kind, ⟨"Tag", "notes::Tag"⟩], {}⟩
      (Utf8.encode "Account\nTag"))⟩,
    ⟨.registry 0 (.register ⟨"Account", "shop::Account"⟩)⟩]

/-- The attempts of these calls.  Each name is taken by one of them at most. -/
theorem registration_exact_crowded :
    ((init.attempts crowded).map fun a => (a.kind.typeName, a.performs)) =
        [("notes::Note", false), ("bank::Account", true), ("bank::Account", false),
          ("bank::Account", false), ("notes::Tag", true), ("shop::Account", false)] ∧
      (namesTaken (init.attempts crowded)).Nodup ∧
      (init.run crowded).store.kind? "Account" = some accounts.kind ∧
      ∀ id name, ((Access.get ⟨accounts, {}⟩ id).alone (init.run crowded).store).1 ≠
        .error (.kindNotRegistered name) := by
  obtain ⟨hagrees, -, -, hnodup, -, -, hknown⟩ := registration_exact crowded
  have hrecorded : ((init.run crowded).registries 0).isRegistered accounts.kind = true := by
    decide +kernel
  refine ⟨by decide +kernel, hnodup, hagrees 0 accounts.kind hrecorded, fun id => ?_⟩
  exact hknown Json accounts {} ⟨accounts, {}⟩ 0 (crowded.take 2) (crowded.drop 3) rfl rfl _
    (.access (.get ⟨accounts, {}⟩ id)) _ _ rfl rfl

end System

end EntityStore
