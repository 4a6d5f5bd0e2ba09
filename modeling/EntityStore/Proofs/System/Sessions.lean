import EntityStore.Proofs.Session.Run
import EntityStore.Proofs.System.Run

/-! # A system as a world of sessions

Wrappings, collections and registries add nothing to what sessions can do to a store.  Every
run of a system is a run of the sessions of its clients, with one plain session more for the
accesses outside of transactions.  So what holds behind every run of sessions holds behind
every run of a system.

* `World.Hosts`          a world with the store and the sessions of a system
* `System.follows_call`  a call is made by some steps of the sessions
* `System.hosts_run`     and so is a whole run, which takes as many versions -/

namespace EntityStore

/-- A world with the store and the sessions of a system.  Session 0 is a plain one, and those
    of the clients come behind it. -/
structure World.Hosts (w : World) (v : System) : Prop where
  store_eq : w.store = v.store
  plain : w.sessions 0 = some .plain
  session : ∀ n s, v.session? n = some s → w.sessions (n + 1) = some s
  free : ∀ n, v.clients n = none → w.sessions (n + 1) = none

/-- Some steps of the sessions lead to a system, and take a version if its version is not that
    of the system in front. -/
def World.Follows (w : World) (v v' : System) : Prop :=
  ∃ steps, (w.run steps).Hosts v' ∧
    w.handedOut steps = if v'.store.version = v.store.version then 0 else 1

namespace World

variable {w : World} {v v' : System}

/-- Steps that register kinds leave the sessions alone. -/
theorem run_register (w : World) (kinds : List Kind) :
    w.run (kinds.map .register) = ⟨w.store.registerEach kinds, w.sessions⟩ := by
  induction kinds generalizing w with
  | nil => rfl
  | cons kind kinds ih =>
    have hstep : w.step (.register kind) = ⟨(Registrar.register kind w.store).2, w.sessions⟩ := by
      simp only [World.step, Registrar.register]
      cases w.store.register kind <;> rfl
    rw [List.map_cons, run_cons, ih, hstep]
    rfl

/-- Steps that register kinds take no version. -/
theorem handedOut_register (w : World) (kinds : List Kind) :
    w.handedOut (kinds.map .register) = 0 := by
  induction kinds generalizing w with
  | nil => rfl
  | cons kind kinds ih =>
    -- a registration takes no version
    have hversion : (w.step (.register kind)).store.version = w.store.version := by
      have hrun := w.run_register [kind]
      rw [List.map_singleton, run_cons, run_nil] at hrun
      rw [hrun]
      exact Store.version_registerEach _ _
    rw [List.map_cons, handedOut, taken, if_pos hversion, ih]

namespace Hosts

/-- The store moves on, and the sessions and clients stay as they are. -/
theorem congr {w' : World} (h : w.Hosts v) (hstore : w'.store = v'.store)
    (hsessions : ∀ n, w'.sessions n = w.sessions n) (hclients : v'.clients = v.clients) :
    w'.Hosts v' where
  store_eq := hstore
  plain := (hsessions 0).trans h.plain
  session n s hs := by
    rw [System.session?, hclients] at hs
    rw [hsessions, h.session n s hs]
  free n hn := by
    rw [hclients] at hn
    rw [hsessions, h.free n hn]

/-- The world stays as it is. -/
theorem follows (h : w.Hosts v) (h' : w.Hosts v') : w.Follows v v' := by
  refine ⟨[], h', ?_⟩
  rw [← h.store_eq, ← h'.store_eq, if_pos rfl, handedOut]

/-- The world takes one step. -/
theorem follows_step (h : w.Hosts v) (step : Step) (h' : (w.step step).Hosts v') :
    w.Follows v v' := by
  refine ⟨[step], h', ?_⟩
  rw [← h.store_eq, ← h'.store_eq]
  rfl

/-- Kinds are registered. -/
theorem follows_register (h : w.Hosts v) {kinds : List Kind}
    (hstore : v'.store = v.store.registerEach kinds) (hclients : v'.clients = v.clients) :
    w.Follows v v' := by
  refine ⟨kinds.map .register, ?_, ?_⟩
  · rw [run_register, h.store_eq]
    exact h.congr hstore.symm (fun _ => rfl) hclients
  · rw [handedOut_register, hstore, Store.version_registerEach, if_pos rfl]

/-- The plain session makes an operation. -/
theorem follows_plain (h : w.Hosts v) {β : Type} (op : Operation β)
    (hstore : v'.store = (op.run .plain v.store).store) (hclients : v'.clients = v.clients) :
    w.Follows v v' := by
  have hstep : w.step (.act 0 op) = w.put 0 .plain v'.store := by
    simp only [World.step, h.plain, h.store_eq, (op.run_plain v.store).1, hstore]
  refine h.follows_step (.act 0 op) ?_
  rw [hstep]
  -- the plain session is where it was
  refine h.congr rfl (fun n => ?_) hclients
  rw [sessions_put]
  split
  · next hn => rw [hn, h.plain]
  · rfl

/-- The session of a client moves on. -/
theorem put (h : w.Hosts v) {n : Nat} {c : Client} {store : Store} {s : Session}
    (hs : ∀ s', c.session? = some s' → s' = s) :
    (w.put (n + 1) s store).Hosts (v.put n c store) := by
  refine ⟨rfl, h.plain, fun m s' hs' => ?_, fun m hm => ?_⟩
  · rw [System.session?_put] at hs'
    rw [sessions_put]
    -- client n stands in the world under the next number, as number 0 makes the plain calls
    by_cases hm : m = n
    · rw [if_pos hm] at hs'
      rw [if_pos (congrArg (· + 1) hm), hs s' hs']
    · rw [if_neg hm] at hs'
      rw [if_neg (fun h => hm (Nat.succ.inj h)), h.session m s' hs']
  · simp only [System.put] at hm
    split at hm
    · cases hm
    · next hne =>
      rw [sessions_put, if_neg (fun h => hne (Nat.succ.inj h)), h.free m hm]

/-- A client moves on without its session. -/
theorem put_same (h : w.Hosts v) {n : Nat} {c : Client}
    (hs : ∀ s, c.session? = some s → w.sessions (n + 1) = some s) :
    w.Hosts (v.put n c v.store) := by
  refine ⟨h.store_eq, h.plain, fun m s hm => ?_, fun m hm => ?_⟩
  · rw [System.session?_put] at hm
    split at hm
    · -- the session of the client is the one that was there
      next hmn => exact hmn ▸ hs s hm
    · exact h.session m s hm
  · simp only [System.put] at hm
    split at hm
    · cases hm
    · exact h.free m hm

end Hosts

end World

namespace System

variable {w : World} {v : System}

/-- A call is made by some steps of the sessions. -/
theorem follows_call (h : w.Hosts v) {β : Type} {c : Call β} {answer : Except Error β}
    {v' : System} (hcall : v.call? c = some (answer, v')) : w.Follows v v' := by
  cases c with
  | store c =>
    cases hcall
    obtain ⟨kinds, hkinds⟩ := c.registers v.store
    exact h.follows_register hkinds rfl
  | registry n c =>
    cases hcall
    obtain ⟨kinds, hkinds⟩ := c.registers (v.registries n) v.store
    exact h.follows_register hkinds rfl
  -- a DAO on its own makes one operation of a plain session
  | access a =>
    cases hcall
    refine h.follows_plain a.operation.2 ?_ rfl
    show (a.alone v.store).2 = _
    rw [a.alone_eq, Collection.runPlain, (a.on_eq .plain v.store).1]
  | findAll c =>
    cases hcall
    -- a query changes nothing
    exact h.follows h
  | enter n origin =>
    simp only [call?] at hcall
    split at hcall
    · next hfree =>
      cases hcall
      have hsession := h.free n hfree
      cases origin with
      | plain =>
        refine h.follows_step (.plain (n + 1)) ?_
        rw [World.step, hsession, h.store_eq]
        exact h.put fun s hs => (Option.some.inj hs).symm
      | begun order =>
        refine h.follows_step (.begin (n + 1) order) ?_
        rw [World.step, hsession, h.store_eq]
        exact h.put fun s hs => (Option.some.inj hs).symm
      -- a caller without a transaction of this layer has no session
      | missing => exact h.follows (h.put_same fun s hs => by cases hs)
      | foreign typeName => exact h.follows (h.put_same fun s hs => by cases hs)
    · cases hcall
  | act n a =>
    simp only [call?] at hcall
    split at hcall
    · cases hcall
    · next c hc =>
      obtain ⟨out, hout, hput⟩ := Option.map_eq_some_iff.1 hcall
      cases hput
      have hsession := h.session n
      rw [session?_eq hc] at hsession
      -- the session of the client makes one operation, or none
      obtain ⟨result, store, state⟩ := out
      have hmoves := a.moves hout
      generalize hs : c.session? = s, hs' : state.session? = s' at hmoves
      cases hmoves with
      | stays =>
        exact h.follows (h.put_same fun s₀ hs₀ => hsession s₀ (by rw [hs, ← hs', hs₀]))
      | operates op s₀ =>
        refine h.follows_step (.act (n + 1) op) ?_
        simp only [World.step, hsession s₀ hs, h.store_eq]
        exact h.put fun s₁ hs₁ => Option.some.inj (hs₁.symm.trans hs')

/-- Whatever is called, the world of sessions follows the system. -/
theorem follows_step (h : w.Hosts v) (r : Request) : w.Follows v (v.step r) := by
  cases hcall : v.call? r.call with
  | none =>
    rw [step_of_none hcall]
    exact h.follows h
  | some out =>
    rw [step_of_some hcall]
    exact follows_call h hcall

/-- Several calls are made by some steps of the sessions, which take as many versions. -/
theorem hosts_run_from (h : w.Hosts v) (rs : List Request) :
    ∃ steps, (w.run steps).Hosts (v.run rs) ∧ w.handedOut steps = v.handedOut rs := by
  induction rs generalizing w v with
  | nil => exact ⟨[], h, rfl⟩
  | cons r rs ih =>
    obtain ⟨first, hfirst, htaken⟩ := follows_step h r
    obtain ⟨rest, hrest, hhanded⟩ := ih hfirst
    refine ⟨first ++ rest, by rwa [World.run_append], ?_⟩
    rw [World.handedOut_append, htaken, hhanded, handedOut, taken]

/-- Every run of a system is a run of sessions, with as many versions handed out. -/
theorem hosts_run (rs : List Request) :
    ∃ steps, (World.init.run steps).Hosts (init.run rs) ∧
      World.init.handedOut steps = init.handedOut rs := by
  have hinit : (World.init.run [.plain 0]).Hosts init := ⟨rfl, rfl, nofun, fun _ _ => rfl⟩
  obtain ⟨steps, h, hhanded⟩ := hosts_run_from hinit rs
  refine ⟨.plain 0 :: steps, h, ?_⟩
  rw [← hhanded, World.handedOut]
  exact Nat.zero_add _

end System

end EntityStore
