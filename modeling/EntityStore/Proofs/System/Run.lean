import EntityStore.Proofs.System.Client

/-! # Runs of a whole system

A system is a store, the registries that are used with it, and its clients.  A call goes to
the store itself, to a registry, to a collection, or to a client; a run is any sequence of
calls, so any interleaving of the calls of any number of clients.

* `System.call?`            makes a call, if it can be made
* `System.run`              makes several calls one after the other
* `System.trace`            the answers that a run gives
* `RegistryCall.registers`  registries do nothing to a store but register kinds
* `System.within_run`       what the sessions remember lies under registered kinds -/

namespace EntityStore

/-! ## Calls to the store and to registries -/

/-- A call to the store itself, with the type of its answer. -/
inductive StoreCall : Type → Type where
  | register (kind : Kind) : StoreCall Unit
  | isRegistered (name : String) : StoreCall Bool
  | kinds : StoreCall (List Kind)
  | size (name : String) : StoreCall Nat
  | version : StoreCall UInt64

/-- Make a call to a store. -/
def StoreCall.run {β : Type} : StoreCall β → Store → Except Error β × Store
  | .register kind, store => Registrar.register kind store
  | .isRegistered name, store => (.ok (store.isRegistered name), store)
  | .kinds, store => (.ok store.kinds, store)
  | .size name, store => (store.size name, store)
  | .version, store => (.ok store.version, store)

/-- A call to a registry, alone or in the course of opening a collection or building a setup,
    with the type of its answer. -/
inductive RegistryCall : Type → Type 1 where
  | register (kind : Kind) : RegistryCall Bool
  | registerList (setup : Setup) (text : Bytes) : RegistryCall (List Kind)
  | registerFile (setup : Setup) (files : FileTree) (path : String) : RegistryCall (List Kind)
  | build (setup : Setup) (files : FileTree) : RegistryCall Setup
  | create {α : Type} (type : EntityType α) (setup : Setup) : RegistryCall (Collection α)
  | isRegistered (kind : Kind) : RegistryCall Bool
  | kinds : RegistryCall (List Kind)
  | size : RegistryCall Nat
  | isEmpty : RegistryCall Bool

/-- Make a call to a registry that is used with a store. -/
def RegistryCall.run {β : Type} : RegistryCall β → Registry → Store → Registration Store β
  | .register kind, r, store => r.register kind store
  | .registerList setup text, r, store => setup.registerList text r store
  | .registerFile setup files path, r, store => setup.registerFile files path r store
  | .build setup files, r, store =>
    let out := setup.build files r (some store)
    ⟨out.result, out.registry, out.registrar.getD store⟩
  | .create type setup, r, store => Collection.create type setup r store
  | .isRegistered kind, r, store => ⟨.ok (r.isRegistered kind), r, store⟩
  | .kinds, r, store => ⟨.ok r.kinds, r, store⟩
  | .size, r, store => ⟨.ok r.size, r, store⟩
  | .isEmpty, r, store => ⟨.ok r.isEmpty, r, store⟩

/-! ## Systems -/

/-- How a client comes into being. -/
inductive Origin where
  /-- With a plain session. -/
  | plain
  /-- With a session that has begun a transaction.  The order is that of the checks at its
      commit. -/
  | begun (order : CheckOrder := .ascending)
  /-- With nothing to pass where a transaction is asked for. -/
  | missing
  /-- With a transaction of another persistence layer. -/
  | foreign (typeName : String)

/-- The client that comes into being, and the store behind it. -/
def Origin.enter : Origin → Store → Client × Store
  | .plain, store => (.session .plain, store)
  | .begun order, store =>
    (.session (Session.begin store order).1, (Session.begin store order).2)
  | .missing, store => (.caller none, store)
  | .foreign typeName, store => (.caller (some (.foreign typeName)), store)

/-- A store, the registries that are used with it, and its clients, by number. -/
structure System where
  store : Store
  registries : Nat → Registry
  clients : Nat → Option Client

/-- A call, with the type of its answer. -/
inductive Call : Type → Type 1 where
  | store {β : Type} (c : StoreCall β) : Call β
  | registry {β : Type} (r : Nat) (c : RegistryCall β) : Call β
  /-- An access outside of transactions. -/
  | access {β : Type} (a : Access β) : Call β
  /-- All entities of a collection, outside of transactions. -/
  | findAll {α : Type} (c : Collection α) : Call (List α)
  /-- A new client, under a number that is free. -/
  | enter (n : Nat) (origin : Origin) : Call Unit
  | act {β : Type} (n : Nat) (a : Action β) : Call β

/-- The client that makes a call, or that comes into being by it. -/
def Call.client? {β : Type} : Call β → Option Nat
  | .enter n _ | .act n _ => some n
  | _ => none

/-- The client that acts in a call. -/
def Call.actor? {β : Type} : Call β → Option Nat
  | .act n _ => some n
  | _ => none

/-- The client that looks data up or changes it in a call. -/
def Call.dataOf? {β : Type} : Call β → Option Nat
  | .act n a => if a.isData = true then some n else none
  | _ => none

/-- A client that looks data up or changes it acts. -/
theorem Call.actor?_of_dataOf? {β : Type} {c : Call β} {n : Nat} (h : c.dataOf? = some n) :
    c.actor? = some n := by
  cases c with
  | act m a =>
    rw [dataOf?] at h
    split at h
    · exact h
    · cases h
  | _ => cases h

/-- A call of any type. -/
structure Request : Type 1 where
  {β : Type}
  call : Call β

/-- A call of any type with its answer. -/
structure Reply : Type 1 where
  {β : Type}
  call : Call β
  answer : Except Error β

namespace System

/-- The system in which every run starts. -/
def init : System := ⟨.empty, fun _ => .empty, fun _ => none⟩

/-- The session of a client, if there is one. -/
def session? (w : System) (n : Nat) : Option Session := (w.clients n).bind Client.session?

/-- Move a client on, together with the store. -/
def put (w : System) (n : Nat) (c : Client) (store : Store) : System :=
  { w with store, clients := fun m => if m = n then some c else w.clients m }

/-- Move a registry on, together with the store. -/
def putRegistry (w : System) (n : Nat) (r : Registry) (store : Store) : System :=
  { w with store, registries := fun m => if m = n then r else w.registries m }

/-- Make a call, and answer it.  Some calls cannot be made: a number can be taken once, and a
    client has the operations of its wrapping only. -/
def call? {β : Type} (w : System) : Call β → Option (Except Error β × System)
  | .store c => some ((c.run w.store).1, { w with store := (c.run w.store).2 })
  | .registry n c =>
    let out := c.run (w.registries n) w.store
    some (out.result, w.putRegistry n out.registry out.registrar)
  | .access a => some ((a.alone w.store).1, { w with store := (a.alone w.store).2 })
  | .findAll c => some ((c.findAll w.store).1, { w with store := (c.findAll w.store).2 })
  | .enter n origin =>
    match w.clients n with
    | none => some (.ok (), w.put n (origin.enter w.store).1 (origin.enter w.store).2)
    | some _ => none
  | .act n a =>
    match w.clients n with
    | none => none
    | some c => (a.run? c w.store).map fun out => (out.result, w.put n out.state out.store)

/-- Make a call.  One that cannot be made changes nothing. -/
def step (w : System) (r : Request) : System :=
  match w.call? r.call with
  | some out => out.2
  | none => w

/-- The answer to a call, if it can be made. -/
def reply? (w : System) (r : Request) : Option Reply :=
  (w.call? r.call).map fun out => ⟨r.call, out.1⟩

/-- Make several calls one after the other. -/
def run (w : System) (requests : List Request) : System := requests.foldl step w

/-- The answers that several calls are given. -/
def trace (w : System) : List Request → List Reply
  | [] => []
  | r :: rs => (w.reply? r).toList ++ (w.step r).trace rs

/-- The number of versions that a call takes. -/
def taken (w : System) (r : Request) : Nat :=
  if (w.step r).store.version = w.store.version then 0 else 1

/-- The number of versions that several calls take. -/
def handedOut (w : System) : List Request → Nat
  | [] => 0
  | r :: rs => w.taken r + (w.step r).handedOut rs

/-- A call that can be made leads to the system that it leaves. -/
theorem step_of_some {w : System} {r : Request} {out : Except Error r.β × System}
    (h : w.call? r.call = some out) : w.step r = out.2 := by
  rw [step, h]

/-- A call that cannot be made leads nowhere. -/
theorem step_of_none {w : System} {r : Request} (h : w.call? r.call = none) :
    w.step r = w := by
  rw [step, h]

@[simp] theorem run_nil (w : System) : w.run [] = w := rfl

@[simp] theorem run_cons (w : System) (r : Request) (rs : List Request) :
    w.run (r :: rs) = (w.step r).run rs := rfl

/-- A run goes on where the one in front of it ends. -/
theorem run_append (w : System) (rs rs' : List Request) :
    w.run (rs ++ rs') = (w.run rs).run rs' :=
  List.foldl_append

end System

/-! ## Registrations -/

/-- Every kind that is registered in the first store is registered in the second one. -/
def Store.Grows (store store' : Store) : Prop :=
  ∀ name, store.isRegistered name = true → store'.isRegistered name = true

namespace Store

/-- A store has the kinds that it has. -/
theorem Grows.refl (store : Store) : store.Grows store := fun _ h => h

/-- What a store has gained it keeps. -/
theorem Grows.trans {a b c : Store} (hab : a.Grows b) (hbc : b.Grows c) : a.Grows c :=
  fun name h => hbc name (hab name h)

/-- Register kinds one after the other, and pass over those that are refused. -/
def registerEach (store : Store) (kinds : List Kind) : Store :=
  kinds.foldl (fun store kind => (Registrar.register kind store).2) store

/-- Some kinds are registered behind others. -/
theorem registerEach_append (store : Store) (kinds kinds' : List Kind) :
    store.registerEach (kinds ++ kinds') = (store.registerEach kinds).registerEach kinds' :=
  List.foldl_append

/-- A kind is registered, or refused and nothing changes. -/
theorem register_cases (store : Store) (kind : Kind) :
    store.register kind = .ok (Registrar.register kind store).2 ∨
      (Registrar.register kind store).2 = store := by
  simp only [Registrar.register]
  cases store.register kind with
  | ok store' => exact .inl rfl
  | error e => exact .inr rfl

/-- A store with the same kinds has not lost any. -/
theorem grows_of_eq {store store' : Store} (h : ∀ name, store'.kind? name = store.kind? name) :
    store.Grows store' := by
  intro name hname
  rw [isRegistered_eq] at hname ⊢
  rwa [h]

/-- A registration loses no kind. -/
theorem grows_register (store : Store) (kind : Kind) :
    store.Grows (Registrar.register kind store).2 := by
  rcases store.register_cases kind with h | h
  · exact (register_eq h).2.2
  · rw [h]
    exact .refl store

/-- Registrations take no version. -/
@[simp] theorem version_registerEach (store : Store) (kinds : List Kind) :
    (store.registerEach kinds).version = store.version := by
  induction kinds generalizing store with
  | nil => rfl
  | cons kind kinds ih =>
    refine (ih _).trans ?_
    rcases store.register_cases kind with h | h
    · exact (register_eq h).2.1
    · exact congrArg version h

/-- Registrations lose no kind. -/
theorem grows_registerEach (store : Store) (kinds : List Kind) :
    store.Grows (store.registerEach kinds) := by
  induction kinds generalizing store with
  | nil => exact .refl store
  | cons kind kinds ih => exact (store.grows_register kind).trans (ih _)

end Store

/-- A registry registers a kind with the store, or leaves the store alone. -/
theorem Registry.registers (r : Registry) (kind : Kind) (store : Store) :
    ∃ kinds, (r.register kind store).registrar = store.registerEach kinds := by
  unfold Registry.register
  split
  · exact ⟨[], rfl⟩
  · -- the store is left as it is if it refuses the kind
    refine ⟨[kind], ?_⟩
    show _ = (Registrar.register kind store).2
    split
    · next h => rw [h]
    · next h => rw [h]

/-- All that the registration of several kinds does to the store is to register kinds. -/
theorem Registry.registers_all (kinds : List Kind) (r : Registry) (store : Store) :
    ∃ kinds', (r.registerAll store kinds).registrar = store.registerEach kinds' := by
  -- along the kinds; the first one that is refused ends the registration
  induction kinds generalizing r store with
  | nil => exact ⟨[], rfl⟩
  | cons kind kinds ih =>
    obtain ⟨first, hfirst⟩ := r.registers kind store
    rw [Registry.registerAll]
    split
    · next r' store' h =>
      -- the other kinds are registered behind the first one
      obtain ⟨rest, hrest⟩ := ih r' store'
      rw [h] at hfirst
      exact ⟨first ++ rest, by rw [hrest, Store.registerEach_append, ← hfirst]⟩
    · next h =>
      rw [h] at hfirst
      exact ⟨first, hfirst⟩

/-- All that the registration of a list does to the store is to register kinds. -/
theorem Setup.registers_list (setup : Setup) (text : Bytes) (r : Registry) (store : Store) :
    ∃ kinds, (setup.registerList text r store).registrar = store.registerEach kinds := by
  rw [Setup.registerList, Registry.registerList]
  split
  · exact ⟨[], rfl⟩
  · -- the outcome of the list is that of its attempts, refused or not
    next kinds _ =>
    obtain ⟨kinds', h⟩ := r.registers_all kinds store
    split
    · next hall =>
      rw [hall] at h
      exact ⟨kinds', h⟩
    · next hall =>
      rw [hall] at h
      exact ⟨kinds', h⟩

/-- All that the registration of a file does to the store is to register kinds. -/
theorem Setup.registers_file (setup : Setup) (files : FileTree) (path : String) (r : Registry)
    (store : Store) :
    ∃ kinds, (setup.registerFile files path r store).registrar = store.registerEach kinds := by
  unfold Setup.registerFile
  split
  · exact ⟨[], rfl⟩
  · split
    · exact ⟨[], rfl⟩
    · exact setup.registers_list _ r store

/-- All that a call to a registry does to the store is to register kinds. -/
theorem RegistryCall.registers {β : Type} (c : RegistryCall β) (r : Registry) (store : Store) :
    ∃ kinds, (c.run r store).registrar = store.registerEach kinds := by
  cases c with
  | register kind => exact r.registers kind store
  | registerList setup text => exact setup.registers_list text r store
  | registerFile setup files path => exact setup.registers_file files path r store
  | build setup files =>
    -- a setup that names no file registers nothing
    simp only [run, Setup.build]
    split
    · exact ⟨[], rfl⟩
    · split
      · exact ⟨[], rfl⟩
      · exact setup.registers_file files _ r store
  | create type setup => exact r.registers type.kind store
  | _ => exact ⟨[], rfl⟩

/-- All that a call to the store itself does to it is to register a kind. -/
theorem StoreCall.registers {β : Type} (c : StoreCall β) (store : Store) :
    ∃ kinds, (c.run store).2 = store.registerEach kinds := by
  cases c with
  | register kind => exact ⟨[kind], rfl⟩
  | _ => exact ⟨[], rfl⟩

/-- An access registers nothing, and takes no kind away. -/
theorem Access.kind?_alone {β : Type} (a : Access β) (store : Store) (name : String) :
    (a.alone store).2.kind? name = store.kind? name := by
  rw [a.alone_eq, Collection.runPlain, (a.on_eq .plain store).1]
  exact (a.operation.2.run_applied .plain nofun).kind?_eq name

/-- Nor does a session. -/
theorem Moves.kind?_eq {store store' : Store} {s s' : Option Session} (h : Moves store s store' s')
    (hwithin : ∀ s₀, s = some s₀ → s₀.Within store) (name : String) :
    store'.kind? name = store.kind? name := by
  cases h with
  | stays => rfl
  | operates op s₀ => exact (op.run_applied s₀ (hwithin s₀ rfl)).kind?_eq name

/-- A session keeps what it remembers under registered kinds. -/
theorem Moves.within {store store' : Store} {s s' : Option Session}
    (h : Moves store s store' s') (hwithin : ∀ s₀, s = some s₀ → s₀.Within store) :
    ∀ s₁, s' = some s₁ → s₁.Within store' := by
  cases h with
  | stays => exact hwithin
  | operates op s₀ =>
    intro s₁ hs₁
    exact Option.some.inj hs₁ ▸ op.within_run s₀ (hwithin s₀ rfl)

namespace System

variable {w : System}

/-- Everything that the sessions of the clients remember lies under registered kinds. -/
def Within (w : System) : Prop := ∀ n s, w.session? n = some s → s.Within w.store

/-- The session of a client, if it is there. -/
theorem session?_eq {n : Nat} {c : Client} (h : w.clients n = some c) :
    w.session? n = c.session? := by
  rw [session?, h, Option.bind_some]

/-- Moving a client on moves its session and no other. -/
theorem session?_put (w : System) (n m : Nat) (c : Client) (store : Store) :
    (w.put n c store).session? m = if m = n then c.session? else w.session? m := by
  simp only [session?, put]
  split <;> rfl

/-- In the first system there is nothing to remember. -/
theorem within_init : init.Within := nofun

/-- A store that has grown serves the clients as well. -/
private theorem Within.grow (hw : w.Within) {store : Store} (h : w.store.Grows store) :
    ∀ n s, w.session? n = some s → s.Within store :=
  fun n s hs t ht => (hw n s hs t ht).mono h

/-- A client that is put in place brings what its session remembers. -/
private theorem Within.put (hw : w.Within) {n : Nat} {c : Client} {store : Store}
    (h : w.store.Grows store) (hc : ∀ s, c.session? = some s → s.Within store) :
    (w.put n c store).Within := by
  intro m s hs
  rw [session?_put] at hs
  split at hs
  · exact hc s hs
  · exact hw.grow h m s hs

/-- A call keeps what transactions remember within the registered kinds. -/
theorem within_call {β : Type} (hw : w.Within) {c : Call β} {answer : Except Error β}
    {w' : System} (h : w.call? c = some (answer, w')) : w'.Within := by
  -- a call registers kinds, moves one session, or touches neither
  cases c with
  | store c =>
    cases h
    obtain ⟨kinds, hkinds⟩ := c.registers w.store
    exact hw.grow (hkinds ▸ w.store.grows_registerEach kinds)
  | registry n c =>
    cases h
    obtain ⟨kinds, hkinds⟩ := c.registers (w.registries n) w.store
    exact hw.grow (hkinds ▸ w.store.grows_registerEach kinds)
  | access a =>
    cases h
    exact hw.grow (Store.grows_of_eq (a.kind?_alone w.store))
  | findAll c =>
    cases h
    exact hw.grow (Store.grows_of_eq ((Access.find c none fun _ => true).kind?_alone w.store))
  | enter n origin =>
    simp only [call?] at h
    split at h
    · cases h
      -- a new session remembers nothing
      cases origin with
      | begun order =>
        refine hw.put (.refl w.store) fun s hs t ht => ?_
        cases hs
        cases ht
        exact Transaction.within_of_empty rfl rfl
      -- a plain session has no transaction
      | plain =>
        refine hw.put (.refl w.store) fun s hs t ht => ?_
        cases hs
        cases ht
      | _ => exact hw.put (.refl w.store) nofun
    · cases h
  | act n a =>
    simp only [call?] at h
    split at h
    · cases h
    · next c hc =>
      -- the session of the client makes one operation at most
      obtain ⟨out, hout, hput⟩ := Option.map_eq_some_iff.1 h
      cases hput
      have hwithin := hw n
      rw [session?_eq hc] at hwithin
      exact hw.put (Store.grows_of_eq ((a.moves hout).kind?_eq hwithin))
        ((a.moves hout).within hwithin)

/-- A step keeps what transactions remember within the registered kinds. -/
theorem within_step (hw : w.Within) (r : Request) : (w.step r).Within := by
  cases h : w.call? r.call with
  | none => rwa [step_of_none h]
  | some out =>
    rw [step_of_some h]
    exact within_call hw h

/-- A run keeps what transactions remember within the registered kinds. -/
theorem within_run (hw : w.Within) (rs : List Request) : (w.run rs).Within := by
  induction rs generalizing w with
  | nil => exact hw
  | cons r rs ih => exact ih (within_step hw r)

end System

end EntityStore
