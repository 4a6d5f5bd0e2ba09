import EntityStore.Proofs.Kind.Listing
import EntityStore.Proofs.System.Registration

/-! # Registering by a list

A list of names is read, all its names are resolved, and only then the first kind is registered.
So a list that cannot be read, names nothing, or has a name that is not known changes nothing.
The kinds of the others are registered in the order of the list, up to the first that the store
refuses; a list that came through may be registered again and again.

* `Registry.resolveAll_ok_iff`, `Registry.resolveAll_error_iff`  names that are resolved or not
* `Registry.Adds`                 exactly the kinds of a list have been registered
* `Registry.proceeds_registerAll` all kinds are registered, or those in front of a refused one
* `Registry.registerAll_again`    kinds that are registered are passed over
* `Registry.registerList_cases`   what becomes of a list
* `Registry.Bulk`                 what comes of its registration, by what the caller is told
* `System.bulk_exact`             all this of the registries of a run -/

namespace EntityStore

/-- A registration begins no transaction. -/
theorem Store.lastTransaction_register {store store' : Store} {kind : Kind}
    (h : store.register kind = .ok store') : store'.lastTransaction = store.lastTransaction := by
  unfold register at h
  split at h
  · cases h
  · obtain rfl := Except.ok.inj h
    rfl

namespace Registry

variable {r r' r'' : Registry} {store store' store'' : Store} {kind : Kind}
  {kinds kinds' : List Kind} {catalog : Catalog}

/-! ## Names -/

/-- The kinds of some names, one after the other. -/
abbrev Resolves (catalog : Catalog) (names : List String) (kinds : List Kind) : Prop :=
  List.Forall₂ (fun name kind => catalog.resolve name = .ok kind) names kinds

/-- Names resolve together if each of them resolves. -/
theorem resolveAll_ok_iff {names : List String} :
    resolveAll catalog names = .ok kinds ↔ Resolves catalog names kinds := by
  -- along the names
  induction names generalizing kinds with
  | nil => simp [resolveAll, eq_comm]
  | cons name names ih =>
    rw [resolveAll]
    cases hname : catalog.resolve name with
    -- one name that is not known fails the whole list
    | error source =>
      refine iff_of_false nofun ?_
      rintro (_ | ⟨hkind, -⟩)
      cases hname.symm.trans hkind
    | ok kind =>
      constructor
      · intro h
        cases hrest : resolveAll catalog names with
        | error e => simp [hrest, Except.map] at h
        | ok rest =>
          simp only [hrest, Except.map, Except.ok.injEq] at h
          exact h ▸ .cons hname (ih.1 hrest)
      · rintro (_ | ⟨hkind, hrest⟩)
        obtain rfl := Except.ok.inj (hname.symm.trans hkind)
        simp only [ih.2 hrest, Except.map]

/-- The first name that is not known is told. -/
theorem resolveAll_error_iff {names : List String} {e : Error} :
    resolveAll catalog names = .error e ↔
      ∃ before name after source, names = before ++ name :: after ∧
        (∀ known ∈ before, ∃ kind, catalog.resolve known = .ok kind) ∧
        catalog.resolve name = .error source ∧ e = .unresolvableKind name source := by
  -- along the names; the first that is not known is this one, or one behind it
  induction names with
  | nil => simp [resolveAll]
  | cons name names ih =>
    rw [resolveAll]
    simp only [List.cons_eq_append_iff]
    cases hname : catalog.resolve name with
    | error source =>
      simp only [Except.error.injEq]
      constructor
      · rintro rfl
        exact ⟨[], name, names, source, .inl ⟨rfl, rfl⟩, List.forall_mem_nil _, hname, rfl⟩
      · rintro ⟨before, unknown, after, source', ⟨rfl, hcons⟩ | ⟨rest, rfl, -⟩, hbefore, hsource,
          rfl⟩
        · obtain ⟨rfl, -⟩ := List.cons.inj hcons
          rw [Except.error.inj (hname.symm.trans hsource)]
        · obtain ⟨kind, hkind⟩ := hbefore name List.mem_cons_self
          cases hname.symm.trans hkind
    -- the first name is known, so the one that fails is among the others
    | ok kind =>
      have hrest : (resolveAll catalog names).map (kind :: ·) = .error e ↔
          resolveAll catalog names = .error e := by
        cases resolveAll catalog names <;> simp [Except.map]
      rw [hrest, ih]
      constructor
      · rintro ⟨before, unknown, after, source, rfl, hbefore, hsource, rfl⟩
        exact ⟨name :: before, unknown, after, source, .inr ⟨before, rfl, rfl⟩,
          List.forall_mem_cons.2 ⟨⟨kind, hname⟩, hbefore⟩, hsource, rfl⟩
      · rintro ⟨before, unknown, after, source, ⟨rfl, hcons⟩ | ⟨rest, rfl, rfl⟩, hbefore, hsource,
          rfl⟩
        · obtain ⟨rfl, -⟩ := List.cons.inj hcons
          cases hname.symm.trans hsource
        · exact ⟨rest, unknown, after, source, rfl, (List.forall_mem_cons.1 hbefore).2, hsource,
            rfl⟩

/-! ## Kinds -/

/-- Exactly the kinds of a list have been registered, beyond those that were: the registry
    remembers and the store holds them and what they did before, and nothing else has changed. -/
structure Adds (r : Registry) (store : Store) (kinds : List Kind) (r' : Registry)
    (store' : Store) : Prop where
  isRegistered_iff : ∀ kind, r'.isRegistered kind = true ↔
    kind ∈ kinds ∨ r.isRegistered kind = true
  kind?_iff : ∀ name kind, store'.kind? name = some kind ↔
    kind ∈ kinds ∧ kind.name = name ∨ store.kind? name = some kind
  record?_eq : ∀ key, store'.record? key = store.record? key
  version_eq : store'.version = store.version
  lastTransaction_eq : store'.lastTransaction = store.lastTransaction

/-- What has been registered is there. -/
theorem Adds.mem (h : r.Adds store kinds r' store') (hkind : kind ∈ kinds) :
    r'.isRegistered kind = true ∧ store'.kind? kind.name = some kind :=
  ⟨(h.isRegistered_iff kind).2 (.inl hkind), (h.kind?_iff _ kind).2 (.inl ⟨hkind, rfl⟩)⟩

theorem adds_nil (r : Registry) (store : Store) : r.Adds store [] r store where
  isRegistered_iff kind := by simp
  kind?_iff name kind := by simp
  record?_eq _ := rfl
  version_eq := rfl
  lastTransaction_eq := rfl

/-- Kinds that are added in two parts are added. -/
theorem Adds.append (h : r.Adds store kinds r' store') (h' : r'.Adds store' kinds' r'' store'') :
    r.Adds store (kinds ++ kinds') r'' store'' where
  isRegistered_iff kind := by
    -- a kind is in the first part, in the second, or was there before
    rw [h'.isRegistered_iff, h.isRegistered_iff, List.mem_append]
    tauto
  kind?_iff name kind := by
    rw [h'.kind?_iff, h.kind?_iff, List.mem_append]
    tauto
  record?_eq key := (h'.record?_eq key).trans (h.record?_eq key)
  version_eq := h'.version_eq.trans h.version_eq
  lastTransaction_eq := h'.lastTransaction_eq.trans h.lastTransaction_eq

/-- A kind that the registry remembers is held by the store already. -/
theorem adds_of_recorded (hagrees : r.Agrees store) (h : r.isRegistered kind = true) :
    r.Adds store [kind] r store where
  isRegistered_iff kind' := by
    rw [List.mem_singleton]
    refine ⟨.inr, ?_⟩
    rintro (rfl | hrecorded)
    · exact h
    · exact hrecorded
  kind?_iff name kind' := by
    rw [List.mem_singleton]
    refine ⟨.inr, ?_⟩
    rintro (⟨rfl, rfl⟩ | hheld)
    · -- the store might hold another type under the name, were it not for the agreement
      exact hagrees kind' h
    · exact hheld
  record?_eq _ := rfl
  version_eq := rfl
  lastTransaction_eq := rfl

/-- A registration that succeeds adds its kind. -/
theorem adds_of_register (h : store.register kind = .ok store') :
    r.Adds store [kind] ⟨r.registered.insert kind⟩ store' where
  isRegistered_iff kind' := by
    rw [Attempt.isRegistered_insert, List.mem_singleton, eq_comm]
  kind?_iff name kind' := by
    obtain ⟨hfree, hkind⟩ := Store.kind?_register h
    rw [hkind, List.mem_singleton]
    -- the name of the kind was free, and the others are as they were
    by_cases hname : kind.name = name
    · subst hname
      simp only [if_true, Option.some.injEq, hfree, reduceCtorEq, or_false]
      constructor
      · rintro rfl
        exact ⟨rfl, rfl⟩
      · rintro ⟨rfl, -⟩
        rfl
    · -- any other name stands for what it stood for
      simp only [if_neg hname]
      refine ⟨.inr, ?_⟩
      rintro (⟨rfl, rfl⟩ | hheld)
      · exact absurd rfl hname
      · exact hheld
  record?_eq := (Store.register_eq h).1
  version_eq := (Store.register_eq h).2.1
  lastTransaction_eq := Store.lastTransaction_register h

/-- What becomes of kinds that are registered one after the other, and which of them are tried:
    all of them are registered, or those in front of the first one that the store refuses. -/
inductive Proceeds (r : Registry) (store : Store) :
    List Kind → Registration Store Unit → List Kind → Prop where
  | all {kinds : List Kind} {r' : Registry} {store' : Store}
      (hadds : r.Adds store kinds r' store') :
      Proceeds r store kinds ⟨.ok (), r', store'⟩ kinds
  | upTo {before after : List Kind} {kind : Kind} {r' : Registry} {store' : Store}
      (hadds : r.Adds store before r' store') (hnew : r'.isRegistered kind = false)
      (htaken : store'.isRegistered kind.name = true) :
      Proceeds r store (before ++ kind :: after)
        ⟨.error (.duplicateKind kind.name), r', store'⟩ (before ++ [kind])

/-- A kind that was added stands in front of those that the registration goes on with. -/
theorem Proceeds.cons {out : Registration Store Unit} {tried : List Kind}
    (hadds : r.Adds store [kind] r' store') (h : Proceeds r' store' kinds out tried) :
    Proceeds r store (kind :: kinds) out (kind :: tried) := by
  cases h with
  | all hadds' => exact .all (hadds.append hadds')
  | upTo hadds' hnew htaken => exact .upTo (hadds.append hadds') hnew htaken

/-- The registration of several kinds goes through all of them, or up to one that is taken. -/
theorem proceeds_registerAll (hagrees : r.Agrees store) (kinds : List Kind) :
    Proceeds r store kinds (r.registerAll store kinds)
      ((r.attemptsAll store kinds).map Attempt.kind) := by
  -- an attempt keeps registry and store in agreement, which carries the induction on
  induction kinds generalizing r store with
  | nil => exact .all (adds_nil r store)
  | cons kind kinds ih =>
    have hbehind := Attempt.agrees_out (a := ⟨kind, r, store⟩) hagrees
    rcases (Attempt.mk kind r store).out_cases with
      ⟨hrecorded, hout⟩ | ⟨hnew, ⟨store', hregister, hout⟩ | ⟨e, hregister, hout⟩⟩
    all_goals
      rw [hout] at hbehind
      change r.register kind store = _ at hout
      simp only [registerAll, attemptsAll, hout, List.map_cons]
    · -- recorded before, registered now, or taken, which ends the list
      exact (ih hbehind).cons (adds_of_recorded hagrees hrecorded)
    · exact (ih hbehind).cons (adds_of_register hregister)
    · obtain ⟨htaken, rfl⟩ := Store.register_error_iff.1 hregister
      exact .upTo (adds_nil r store) hnew htaken

/-- Kinds that have been registered are passed over. -/
theorem registerAll_again (h : ∀ kind ∈ kinds, r.isRegistered kind = true) :
    r.registerAll store kinds = ⟨.ok (), r, store⟩ := by
  induction kinds with
  | nil => rfl
  | cons kind kinds ih =>
    obtain ⟨hkind, hkinds⟩ := List.forall_mem_cons.1 h
    rw [registerAll, register, if_pos hkind]
    exact ih hkinds

/-! ## Lists -/

variable {text : Bytes}

/-- The kinds of a list are those of the names in its text, which have to be some. -/
theorem kindsOfList_eq (catalog : Catalog) (text : Bytes) :
    kindsOfList catalog text = match Utf8.decode? text with
      | none => .error (.io .invalidUtf8)
      | some t =>
        if KindListing.names t = [] then
          .error (.configuration "entity kind resource does not name any kinds")
        else resolveAll catalog (KindListing.names t) := by
  rw [kindsOfList, KindListing.parse_eq]
  cases Utf8.decode? text with
  | none => rfl
  | some t =>
    cases hnames : KindListing.names t <;>
      simp [hnames, bind, Except.bind, throw, throwThe, MonadExceptOf.throw]

/-- A list has kinds if it is text, names some, and all of them resolve. -/
theorem kindsOfList_ok_iff :
    kindsOfList catalog text = .ok kinds ↔ ∃ t, Utf8.decode? text = some t ∧
      KindListing.names t ≠ [] ∧ Resolves catalog (KindListing.names t) kinds := by
  rw [kindsOfList_eq]
  cases Utf8.decode? text with
  | none => simp
  | some t => by_cases hnames : KindListing.names t = [] <;> simp [hnames, resolveAll_ok_iff]

/-- The reasons for which a list has no kinds. -/
theorem kindsOfList_error_iff {e : Error} :
    kindsOfList catalog text = .error e ↔
      Utf8.decode? text = none ∧ e = .io .invalidUtf8 ∨
        (∃ t, Utf8.decode? text = some t ∧ KindListing.names t = [] ∧
          e = .configuration "entity kind resource does not name any kinds") ∨
        ∃ t before name after source, Utf8.decode? text = some t ∧
          KindListing.names t = before ++ name :: after ∧
          (∀ known ∈ before, ∃ kind, catalog.resolve known = .ok kind) ∧
          catalog.resolve name = .error source ∧ e = .unresolvableKind name source := by
  rw [kindsOfList_eq]
  cases Utf8.decode? text with
  | none => simp [@eq_comm _ e]
  | some t =>
    by_cases hnames : KindListing.names t = []
    · simp [hnames, @eq_comm _ e]
    · simp [hnames, resolveAll_error_iff]

/-- Looking for kinds meets no store that could refuse them. -/
theorem kindsOfList_ne_duplicate (name : String) :
    kindsOfList catalog text ≠ .error (.duplicateKind name) := by
  intro h
  rcases kindsOfList_error_iff.1 h with
    ⟨-, he⟩ | ⟨_, _, _, he⟩ | ⟨_, _, _, _, _, _, _, _, _, he⟩ <;> cases he

/-- A registry and a store are led to others by attempts to register some kinds in this order. -/
def Tries (r : Registry) (store : Store) (kinds : List Kind) (r' : Registry) (store' : Store) :
    Prop :=
  ∃ as, Linked r store as r' store' ∧ as.map Attempt.kind = kinds

/-- What becomes of a list: its kinds are not found, or they are registered in order, all of them
    or up to one that is refused. -/
theorem registerList_cases (hagrees : r.Agrees store) (text : Bytes) (catalog : Catalog) :
    (∃ e, kindsOfList catalog text = .error e ∧
        r.registerList text catalog store = ⟨.error e, r, store⟩) ∨
      (∃ kinds r' store', kindsOfList catalog text = .ok kinds ∧
        r.registerList text catalog store = ⟨.ok kinds, r', store'⟩ ∧
        r.Adds store kinds r' store' ∧ r.Tries store kinds r' store') ∨
      ∃ before kind after r' store', kindsOfList catalog text = .ok (before ++ kind :: after) ∧
        r.registerList text catalog store = ⟨.error (.duplicateKind kind.name), r', store'⟩ ∧
        r.Adds store before r' store' ∧ r'.isRegistered kind = false ∧
        store'.isRegistered kind.name = true ∧ r.Tries store (before ++ [kind]) r' store' := by
  rw [registerList]
  cases hkinds : kindsOfList catalog text with
  | error e => exact .inl ⟨e, rfl, rfl⟩
  | ok kinds =>
    have hproceeds := proceeds_registerAll hagrees kinds
    have hlinked := r.linked_all kinds store
    dsimp only
    generalize r.registerAll store kinds = out at hproceeds hlinked ⊢
    generalize htried : (r.attemptsAll store kinds).map Attempt.kind = tried at hproceeds
    -- the answer of the list is that of its kinds, with the kinds themselves in the place of `()`
    cases hproceeds with
    | all hadds => exact .inr (.inl ⟨kinds, _, _, rfl, rfl, hadds, _, hlinked, htried⟩)
    | upTo hadds hnew htaken =>
      exact .inr (.inr ⟨_, _, _, _, _, rfl, rfl, hadds, hnew, htaken, _, hlinked, htried⟩)

/-- Whether a list has kinds can be seen from the errors that are no refusals. -/
theorem registerList_error_iff (hagrees : r.Agrees store) (text : Bytes) (catalog : Catalog)
    {e : Error} (he : ∀ name, e ≠ .duplicateKind name) :
    (r.registerList text catalog store).result = .error e ↔
      kindsOfList catalog text = .error e := by
  rcases registerList_cases hagrees text catalog with
    ⟨e', hkinds, hout⟩ | ⟨kinds, r', store', hkinds, hout, -⟩ |
    ⟨before, kind, after, r', store', hkinds, hout, -⟩
  · rw [hkinds, hout]
  · rw [hkinds, hout]
  · rw [hkinds, hout]
    -- the list has kinds, and is refused for one that is taken
    refine iff_of_false (fun h => ?_) nofun
    exact he kind.name (Except.error.inj h).symm

/-- A list that fails before its first kind is registered changes nothing. -/
theorem registerList_of_error (hagrees : r.Agrees store) {e : Error}
    (he : ∀ name, e ≠ .duplicateKind name)
    (h : (r.registerList text catalog store).result = .error e) :
    r.registerList text catalog store = ⟨.error e, r, store⟩ := by
  have hkinds := (registerList_error_iff hagrees text catalog he).1 h
  rw [registerList, hkinds]

/-- A list is refused behind the kinds that it has registered. -/
theorem registerList_of_refused (hagrees : r.Agrees store) {name : String}
    (h : (r.registerList text catalog store).result = .error (.duplicateKind name)) :
    ∃ before kind after r' store', kindsOfList catalog text = .ok (before ++ kind :: after) ∧
      kind.name = name ∧
      r.registerList text catalog store = ⟨.error (.duplicateKind name), r', store'⟩ ∧
      r.Adds store before r' store' ∧ r'.isRegistered kind = false ∧
      store'.isRegistered name = true ∧ r.Tries store (before ++ [kind]) r' store' := by
  rcases registerList_cases hagrees text catalog with
    ⟨e, hfailed, hout⟩ | ⟨kinds, r', store', -, hout, -⟩ |
    ⟨before, kind, after, r', store', hkinds, hout, hadds, hnew, htaken, htries⟩
  · rw [hout] at h
    -- no list fails to have kinds for a duplicate
    obtain rfl := Except.error.inj h
    exact absurd hfailed (kindsOfList_ne_duplicate name)
  · rw [hout] at h
    cases h
  · rw [hout] at h
    obtain rfl := Error.duplicateKind.inj (Except.error.inj h)
    exact ⟨before, kind, after, r', store', hkinds, rfl, hout, hadds, hnew, htaken, htries⟩

/-- A list that is answered has registered its kinds. -/
theorem registerList_of_ok (hagrees : r.Agrees store)
    (h : (r.registerList text catalog store).result = .ok kinds) :
    ∃ r' store', kindsOfList catalog text = .ok kinds ∧
      r.registerList text catalog store = ⟨.ok kinds, r', store'⟩ ∧
      r.Adds store kinds r' store' ∧ r.Tries store kinds r' store' := by
  rcases registerList_cases hagrees text catalog with
    ⟨e, -, hout⟩ | ⟨kinds', r', store', hkinds, hout, hadds, htries⟩ |
    ⟨before, kind, after, r', store', -, hout, -⟩
  · rw [hout] at h
    cases h
  · rw [hout] at h
    obtain rfl := Except.ok.inj h
    exact ⟨r', store', hkinds, hout, hadds, htries⟩
  · rw [hout] at h
    cases h

/-- Registered a second time, a list changes nothing. -/
theorem registerList_again (hkinds : kindsOfList catalog text = .ok kinds)
    (h : ∀ kind ∈ kinds, r.isRegistered kind = true) :
    r.registerList text catalog store = ⟨.ok kinds, r, store⟩ := by
  rw [registerList, hkinds]
  simp only [registerAll_again h]

/-- A list is refused for the first of its names that is not known. -/
theorem registerList_unresolvable_iff (hagrees : r.Agrees store) (text : Bytes)
    (catalog : Catalog) (name : String) (source : UnknownName) :
    (r.registerList text catalog store).result = .error (.unresolvableKind name source) ↔
      ∃ t before after, Utf8.decode? text = some t ∧
        KindListing.names t = before ++ name :: after ∧
        (∀ known ∈ before, ∃ kind, catalog.resolve known = .ok kind) ∧
        catalog.resolve name = .error source := by
  have hne (kind : String) : Error.unresolvableKind name source ≠ .duplicateKind kind := nofun
  rw [registerList_error_iff hagrees text catalog hne, kindsOfList_error_iff]
  constructor
  · rintro (⟨-, he⟩ | ⟨t, -, -, he⟩ | ⟨t, before, _, after, _, ht, hnames, hbefore, hname, he⟩)
    · -- the text is no text, or names nothing, or has a first name that is not known
      cases he
    · cases he
    · obtain ⟨rfl, rfl⟩ := Error.unresolvableKind.inj he
      exact ⟨t, before, after, ht, hnames, hbefore, hname⟩
  · rintro ⟨t, before, after, ht, hnames, hbefore, hname⟩
    exact .inr (.inr ⟨t, before, name, after, source, ht, hnames, hbefore, hname, rfl⟩)

/-- A list that has kinds is answered, unless one of them is refused. -/
theorem registerList_of_kinds (hagrees : r.Agrees store)
    (h : kindsOfList catalog text = .ok kinds) :
    (r.registerList text catalog store).result = .ok kinds ∨
      ∃ kind ∈ kinds,
        (r.registerList text catalog store).result = .error (.duplicateKind kind.name) := by
  rcases registerList_cases hagrees text catalog with ⟨e, hfailed, -⟩ |
    ⟨kinds', r', store', hkinds, hout, -⟩ | ⟨before, kind, after, r', store', hkinds, hout, -⟩
  · cases h.symm.trans hfailed
  · rw [hout, Except.ok.inj (h.symm.trans hkinds)]
    exact .inl rfl
  · rw [hout, Except.ok.inj (h.symm.trans hkinds)]
    exact .inr ⟨kind, List.mem_append_right before List.mem_cons_self, rfl⟩

/-- What comes of the registration of a list. -/
structure Bulk (r : Registry) (store : Store) (catalog : Catalog) (text : Bytes)
    (out : Registration Store (List Kind)) : Prop where
  /-- A list that fails before its first kind is registered changes nothing. -/
  unchanged : ∀ e, out.result = .error e → (∀ name, e ≠ .duplicateKind name) →
    out = ⟨.error e, r, store⟩
  io_iff : (∃ cause, out.result = .error (.io cause)) ↔ Utf8.decode? text = none
  configuration_iff : (∃ reason, out.result = .error (.configuration reason)) ↔
    ∃ t, Utf8.decode? text = some t ∧ KindListing.names t = []
  /-- The first name is told that is not in the catalog. -/
  unresolvable_iff : ∀ name source, out.result = .error (.unresolvableKind name source) ↔
    ∃ t before after, Utf8.decode? text = some t ∧
      KindListing.names t = before ++ name :: after ∧
      (∀ known ∈ before, ∃ kind, catalog.resolve known = .ok kind) ∧
      catalog.resolve name = .error source
  /-- If all names are in it, the kinds are registered or one of them is refused. -/
  resolved : ∀ t kinds, Utf8.decode? text = some t → KindListing.names t ≠ [] →
    Resolves catalog (KindListing.names t) kinds →
      out.result = .ok kinds ∨ ∃ kind ∈ kinds, out.result = .error (.duplicateKind kind.name)
  /-- Up to a kind that is refused exactly those in front of it have been registered, in order. -/
  refused : ∀ name, out.result = .error (.duplicateKind name) →
    ∃ t before kind after, Utf8.decode? text = some t ∧
      Resolves catalog (KindListing.names t) (before ++ kind :: after) ∧ kind.name = name ∧
      r.Adds store before out.registry out.registrar ∧
      out.registry.isRegistered kind = false ∧ out.registrar.isRegistered name = true ∧
      r.Tries store (before ++ [kind]) out.registry out.registrar
  /-- If none is refused, all of them are registered, and the list may be registered again. -/
  registered : ∀ kinds, out.result = .ok kinds →
    (∃ t, Utf8.decode? text = some t ∧ Resolves catalog (KindListing.names t) kinds) ∧
      r.Adds store kinds out.registry out.registrar ∧
      (∀ kind ∈ kinds, out.registry.isRegistered kind = true ∧
        out.registrar.kind? kind.name = some kind) ∧
      r.Tries store kinds out.registry out.registrar ∧
      out.registry.registerList text catalog out.registrar =
        ⟨.ok kinds, out.registry, out.registrar⟩

end Registry

namespace System

/-- The kinds that a text lists are registered with a registry and the store of a run. -/
theorem bulk_exact (rs : List Request) (n : Nat) (catalog : Catalog) (text : Bytes) :
    ((init.run rs).registries n).Bulk (init.run rs).store catalog text
      (((init.run rs).registries n).registerList text catalog (init.run rs).store) := by
  have hagrees := (registers_run agrees_init rs).agrees.agrees n
  -- an error that names no kind is one of the reading
  have herror (e : Error) (he : ∀ name, e ≠ .duplicateKind name) :=
    (Registry.registerList_error_iff hagrees text catalog he).trans Registry.kindsOfList_error_iff
  constructor
  case unchanged => exact fun e h he => Registry.registerList_of_error hagrees he h
  case io_iff => simp [fun cause => herror (.io cause) nofun]
  case configuration_iff => simp [fun reason => herror (.configuration reason) nofun]
  case unresolvable_iff => exact Registry.registerList_unresolvable_iff hagrees text catalog
  case resolved =>
    intro t kinds ht hnames hresolves
    exact Registry.registerList_of_kinds hagrees
      (Registry.kindsOfList_ok_iff.2 ⟨t, ht, hnames, hresolves⟩)
  case refused =>
    intro name h
    obtain ⟨before, kind, after, r', store', hkinds, hname, hout, hleft⟩ :=
      Registry.registerList_of_refused hagrees h
    -- the kinds in front of the one that is taken have been added
    obtain ⟨t, ht, -, hresolves⟩ := Registry.kindsOfList_ok_iff.1 hkinds
    rw [hout]
    exact ⟨t, before, kind, after, ht, hresolves, hname, hleft⟩
  case registered =>
    intro kinds h
    obtain ⟨r', store', hkinds, hout, hadds, htries⟩ := Registry.registerList_of_ok hagrees h
    obtain ⟨t, ht, -, hresolves⟩ := Registry.kindsOfList_ok_iff.1 hkinds
    rw [hout]
    exact ⟨⟨t, ht, hresolves⟩, hadds, fun kind hkind => hadds.mem hkind, htries,
      Registry.registerList_again hkinds fun kind hkind => (hadds.mem hkind).1⟩

/-- Notes are registered behind the back of the registries. -/
def behind : List Request := [⟨.store (.register Note.type.kind)⟩]

/-- The kind of tags. -/
def tags : Kind := ⟨"Tag", "notes::Tag"⟩

/-- A list with tags under both of their names, and one with notes behind them. -/
def tagList : Bytes := Utf8.encode "Tag\n# under the path of the type\n\n notes::Tag \n"

def noteList : Bytes := tagList ++ Utf8.encode "Note"

/-- The tags are registered, and again; behind them the notes are refused. -/
theorem bulk_exact_behind :
    (∃ out, out = ((init.run behind).registries 0).registerList tagList
        (.ofList [tags, Note.type.kind]) (init.run behind).store ∧
      out.result = .ok [tags, tags] ∧ out.registry.isRegistered tags = true ∧
      out.registrar.kind? "Tag" = some tags ∧
      out.registry.registerList tagList (.ofList [tags, Note.type.kind]) out.registrar =
        ⟨.ok [tags, tags], out.registry, out.registrar⟩) ∧
    ∃ out, out = ((init.run behind).registries 0).registerList noteList
        (.ofList [tags, Note.type.kind]) (init.run behind).store ∧
      out.result = .error (.duplicateKind "Note") ∧ out.registry.isRegistered tags = true ∧
      out.registrar.version = (init.run behind).store.version := by
  refine ⟨⟨_, rfl, ?_⟩, _, rfl, ?_⟩
  · -- the list names the kind twice
    have hresult : (((init.run behind).registries 0).registerList tagList
        (.ofList [tags, Note.type.kind]) (init.run behind).store).result = .ok [tags, tags] := by
      with_unfolding_all rfl
    obtain ⟨-, -, hheld, -, hagain⟩ := (bulk_exact behind 0 _ _).registered _ hresult
    obtain ⟨hrecorded, hkind⟩ := hheld tags List.mem_cons_self
    exact ⟨hresult, hrecorded, hkind, hagain⟩
  · have hresult : (((init.run behind).registries 0).registerList noteList
        (.ofList [tags, Note.type.kind]) (init.run behind).store).result =
          .error (.duplicateKind "Note") := by
      with_unfolding_all rfl
    obtain ⟨_, _, _, _, -, -, -, hadds, -⟩ := (bulk_exact behind 0 _ _).refused _ hresult
    exact ⟨hresult, by decide +kernel, hadds.version_eq⟩

end System

end EntityStore
