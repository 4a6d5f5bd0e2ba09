import EntityStore.Proofs.Session.Effect

/-! # Runs of many sessions

A world is a store with the sessions that were opened on it.  A step registers a kind, opens
a session, or lets one session run one operation; a run is any sequence of steps, so any
interleaving of the operations of any number of sessions.

* `World.step`, `World.run`      one step, and a sequence of steps
* `World.handedOut`              the number of versions that a run takes
* `World.writes_cases`           where a write comes from
* `World.record?_step`           what a step does to the records
* `World.sessions_step_cases`    how a session that is there behind a step got there
* `World.open?_step`             how a transaction that is open behind a step got there
* `World.sound_run`              versions of records are positive and never ahead of the store -/

namespace EntityStore

/-- A store and the sessions that were opened on it, by number. -/
structure World where
  store : Store
  sessions : Nat → Option Session

/-- One step of a run. -/
inductive Step : Type 1 where
  /-- Register a kind. -/
  | register (kind : Kind)
  /-- Open a plain session under a number that is free. -/
  | plain (n : Nat)
  /-- Open a session with a new transaction under a number that is free.  The order is that of
      the checks at its commit. -/
  | begin (n : Nat) (order : CheckOrder := .ascending)
  /-- Run an operation in the session of a number. -/
  | act {β : Type} (n : Nat) (op : Operation β)

/-- Whether a step registers a kind. -/
def Step.registers : Step → Bool
  | .register _ => true
  | _ => false

/-- The session that runs an operation in a step. -/
def Step.session? : Step → Option Nat
  | .act n _ => some n
  | _ => none

/-- The session that opens a query in a step. -/
def Step.query? : Step → Option Nat
  | .act n op => if op.isQuery = true then some n else none
  | _ => none

/-- The session that loads a record in a step, and the address of the record. -/
def Step.load? : Step → Option (Nat × RecordKey)
  | .act n (.load type id) => some (n, ⟨type.kindName, id⟩)
  | _ => none

namespace World

/-- A store on which no session has been opened. -/
def on (store : Store) : World := ⟨store, fun _ => none⟩

/-- The world in which every run starts. -/
def init : World := on .empty

/-- The world with the same store, and no sessions. -/
def restart (w : World) : World := on w.store

/-- Move a session on, together with the store. -/
def put (w : World) (n : Nat) (s : Session) (store : Store) : World :=
  ⟨store, fun m => if m = n then some s else w.sessions m⟩

/-- Take one step.  A step that is refused, or has no session, changes nothing. -/
def step (w : World) : Step → World
  | .register kind =>
    match w.store.register kind with
    | .ok store => { w with store }
    | .error _ => w
  | .plain n =>
    match w.sessions n with
    | none => w.put n .plain w.store
    | some _ => w
  | .begin n order =>
    match w.sessions n with
    | none => w.put n (Session.begin w.store order).1 (Session.begin w.store order).2
    | some _ => w
  | .act n op =>
    match w.sessions n with
    | none => w
    | some s => w.put n (op.run s w.store).state (op.run s w.store).store

/-- Take several steps. -/
def run (w : World) (steps : List Step) : World := steps.foldl step w

/-- What a step writes to the store. -/
def writes (w : World) : Step → WriteSet
  | .act n op =>
    match w.sessions n with
    | some s => op.writes s w.store
    | none => ∅
  | _ => ∅

/-- The number of versions that a step takes. -/
def taken (w : World) (step : Step) : Nat :=
  if (w.step step).store.version = w.store.version then 0 else 1

/-- The number of versions that a run takes. -/
def handedOut (w : World) : List Step → Nat
  | [] => 0
  | step :: steps => w.taken step + (w.step step).handedOut steps

/-- The transaction of a session, if it is open. -/
def open? (w : World) (n : Nat) : Option Transaction :=
  ((w.sessions n).bind Session.transaction).filter fun t => t.status = .active

variable {w : World}

@[simp] theorem run_nil (w : World) : w.run [] = w := rfl

@[simp] theorem run_cons (w : World) (step : Step) (steps : List Step) :
    w.run (step :: steps) = (w.step step).run steps := rfl

/-- Moving a session on brings its store along. -/
@[simp] theorem store_put (w : World) (n : Nat) (s : Session) (store : Store) :
    (w.put n s store).store = store := rfl

/-- Moving a session on leaves the others where they are. -/
@[simp] theorem sessions_put (w : World) (n m : Nat) (s : Session) (store : Store) :
    (w.put n s store).sessions m = if m = n then some s else w.sessions m := rfl

/-- A run goes on where the one in front of it ends. -/
theorem run_append (w : World) (a b : List Step) : w.run (a ++ b) = (w.run a).run b :=
  List.foldl_append

/-- The versions that two runs take add up. -/
theorem handedOut_append (w : World) (a b : List Step) :
    w.handedOut (a ++ b) = w.handedOut a + (w.run a).handedOut b := by
  induction a generalizing w with
  | nil => simp only [List.nil_append, handedOut, run_nil, Nat.zero_add]
  | cons step a ih =>
    simp only [List.cons_append, handedOut, ih, run_cons, Nat.add_assoc]

/-- A session has an open transaction if it is in one that is active. -/
theorem open?_eq_some_iff {n : Nat} {t : Transaction} :
    w.open? n = some t ↔ w.sessions n = some ⟨some t⟩ ∧ t.status = .active := by
  rw [open?, Option.filter_eq_some_iff, decide_eq_true_iff]
  constructor
  · rintro ⟨h, ht⟩
    obtain ⟨⟨transaction⟩, hs, rfl⟩ := Option.bind_eq_some_iff.1 h
    exact ⟨hs, ht⟩
  · rintro ⟨hs, ht⟩
    exact ⟨by rw [hs]; rfl, ht⟩

/-! ## One step -/

/-- Everything that a session remembers lies under registered kinds. -/
def Within (w : World) : Prop := ∀ n s, w.sessions n = some s → s.Within w.store

/-- Every step but the registration of a kind applies the writes that it makes. -/
theorem applied_step (hw : w.Within) {step : Step} (hstep : step.registers = false) :
    w.store.Applied (w.step step).store (w.writes step) := by
  cases step with
  | register kind => cases hstep
  | plain n =>
    rw [World.step]
    split <;> exact w.store.applied_empty
  | begin n order =>
    rw [World.step]
    split
    · -- a transaction id is taken, which no record shows
      exact ⟨fun _ => rfl, w.store.applied_empty.record?_eq, .inl rfl,
        w.store.applied_empty.version_of_body⟩
    · exact w.store.applied_empty
  | act n op =>
    -- a number that is free does nothing, and a session does what its operation does
    rw [World.step, World.writes]
    cases hs : w.sessions n with
    | none => exact w.store.applied_empty
    | some s => exact op.run_applied s (hw n s hs)

/-- A write comes from a plain session that asks for it, or from a transaction that held it
    back and is committed. -/
theorem writes_cases {step : Step} {key : RecordKey} {body : Option Json}
    (h : (w.writes step)[key]? = some body) :
    (∃ (n : Nat) (β : Type) (op : Operation β), step = .act n op ∧
        w.sessions n = some .plain ∧ op.change? = some (key, body)) ∨
      ∃ n t, step = .act n (.finish .commit) ∧ w.open? n = some t ∧
        ((Operation.finish .commit).run ⟨some t⟩ w.store).result = .ok () ∧
        t.writes[key]? = some body := by
  have hempty : (∅ : WriteSet)[key]? ≠ some body := by
    rw [Std.ExtTreeMap.getElem?_empty]
    nofun
  -- only the operations of sessions write
  cases step with
  | act n op =>
    rw [writes] at h
    cases hs : w.sessions n with
    | none =>
      rw [hs] at h
      -- a number that is free writes nothing
      exact absurd h hempty
    | some s =>
      rw [hs] at h
      rcases op.writes_cases h with ⟨rfl, hchange⟩ | ⟨t, answer, rfl, hending, hresult, hheld⟩
      · exact .inl ⟨n, _, op, rfl, hs, hchange⟩
      · cases op with
        | finish ending =>
          obtain rfl := Option.some.inj hending
          have hopen := open?_eq_some_iff.2 ⟨hs, Session.active_of_commit hresult⟩
          exact .inr ⟨n, t, rfl, hopen, hresult, hheld⟩
        | _ => cases hending
  | _ => exact absurd h hempty

/-- A step changes the records that it writes. -/
theorem record?_step (hw : w.Within) (step : Step) (key : RecordKey) :
    (w.step step).store.record? key =
      match (w.writes step)[key]? with
      | none => w.store.record? key
      | some body => body.map (⟨(w.step step).store.version, ·⟩) := by
  cases step with
  -- a registration writes nothing, and touches no record
  | register kind =>
    have hwrites : w.writes (.register kind) = ∅ := rfl
    rw [hwrites, Std.ExtTreeMap.getElem?_empty, World.step]
    split
    · next h => exact (Store.register_eq h).1 key
    · rfl
  | _ => exact (applied_step hw rfl).record?_eq key

/-- A step takes one version at most. -/
theorem version_step (hw : w.Within) (step : Step) :
    (w.step step).store.version = w.store.version ∨
      (w.step step).store.version = w.store.version + 1 := by
  cases step with
  -- a registration is no write, so it is looked at by itself
  | register kind =>
    rw [World.step]
    split
    · next h => exact .inl (Store.register_eq h).2.1
    · exact .inl rfl
  | _ => exact (applied_step hw rfl).version_eq

/-- A body is written under a new version. -/
theorem version_step_of_body (hw : w.Within) {step : Step} {key : RecordKey} {body : Json}
    (h : (w.writes step)[key]? = some (some body)) :
    (w.step step).store.version = w.store.version + 1 := by
  cases step with
  | register kind =>
    have hwrites : w.writes (.register kind) = ∅ := rfl
    rw [hwrites, Std.ExtTreeMap.getElem?_empty] at h
    cases h
  | _ => exact (applied_step hw rfl).version_of_body key body h

/-- A kind stays registered. -/
theorem isRegistered_step (hw : w.Within) (step : Step) {name : String}
    (h : w.store.isRegistered name = true) : (w.step step).store.isRegistered name = true := by
  cases step with
  | register kind =>
    rw [World.step]
    split
    · next hr => exact (Store.register_eq hr).2.2 name h
    · exact h
  | _ => rw [(applied_step hw rfl).isRegistered_eq, h]

/-- In a world without sessions there is nothing to remember. -/
theorem within_on (store : Store) : (on store).Within := nofun

/-- What a step makes of the session of a number. -/
def moved (w : World) (n : Nat) : Step → Option Session
  | .register _ => w.sessions n
  | .plain m =>
    match w.sessions n with
    | none => if n = m then some .plain else none
    | some s => some s
  | .begin m order =>
    match w.sessions n with
    | none => if n = m then some (Session.begin w.store order).1 else none
    | some s => some s
  | .act m op =>
    match w.sessions n with
    | none => none
    | some s => if n = m then some (op.run s w.store).state else some s

/-- A step moves the session that it belongs to, and no other. -/
theorem sessions_step (w : World) (step : Step) (n : Nat) :
    (w.step step).sessions n = w.moved n step := by
  cases step with
  | register kind =>
    rw [World.step]
    split <;> rfl
  | plain m =>
    -- an opening is for a number that is free
    by_cases hn : n = m
    · subst hn
      cases hs : w.sessions n <;> simp [World.step, moved, put, hs]
    · cases hm : w.sessions m <;> cases hs : w.sessions n <;>
        simp [World.step, moved, put, hm, hs, hn]
  | begin m order =>
    by_cases hn : n = m
    · subst hn
      cases hs : w.sessions n <;> simp [World.step, moved, put, hs]
    · cases hm : w.sessions m <;> cases hs : w.sessions n <;>
        simp [World.step, moved, put, hm, hs, hn]
  -- the session may be this one or another, and its number may be free
  | act m op =>
    by_cases hn : n = m
    · subst hn
      cases hs : w.sessions n <;> simp [World.step, moved, put, hs]
    · cases hm : w.sessions m <;> cases hs : w.sessions n <;>
        simp [World.step, moved, put, hm, hs, hn]

/-- The store behind the operation of a session. -/
theorem store_act (w : World) {n : Nat} {s : Session} (h : w.sessions n = some s) {β : Type}
    (op : Operation β) : (w.step (.act n op)).store = (op.run s w.store).store := by
  simp only [World.step, h, put]

/-- How a session that is there behind a step got there: it was there and did not act, it was
    opened, or it was there and made an operation. -/
theorem sessions_step_cases {step : Step} {n : Nat} {s : Session}
    (h : (w.step step).sessions n = some s) :
    (w.sessions n = some s ∧ step.session? ≠ some n) ∨
      (w.sessions n = none ∧
        (step = .plain n ∧ s = .plain ∨
          ∃ order, step = .begin n order ∧ s = (Session.begin w.store order).1)) ∨
      ∃ (s₀ : Session) (β : Type) (op : Operation β), w.sessions n = some s₀ ∧
        step = .act n op ∧ s = (op.run s₀ w.store).state := by
  rw [sessions_step] at h
  -- a number that is free is taken by an opening, and a session that is there moves by its own
  -- operations
  cases hn : w.sessions n with
  | none =>
    cases step with
    | register kind =>
      rw [moved, hn] at h
      cases h
    | plain m =>
      simp only [moved, hn, Option.ite_none_right_eq_some, Option.some.injEq] at h
      obtain ⟨rfl, rfl⟩ := h
      exact .inr (.inl ⟨rfl, .inl ⟨rfl, rfl⟩⟩)
    | begin m order =>
      simp only [moved, hn, Option.ite_none_right_eq_some, Option.some.injEq] at h
      obtain ⟨rfl, rfl⟩ := h
      exact .inr (.inl ⟨rfl, .inr ⟨order, rfl, rfl⟩⟩)
    | act m op =>
      simp only [moved, hn] at h
      cases h
  | some s₀ =>
    cases step with
    -- an operation moves the session that it belongs to, and no other
    | act m op =>
      simp only [moved, hn] at h
      split at h
      · next hm =>
        obtain rfl := hm
        exact .inr (.inr ⟨s₀, _, op, rfl, rfl, (Option.some.inj h).symm⟩)
      · next hm => exact .inl ⟨h, fun hsession => hm (Option.some.inj hsession).symm⟩
    | register kind => exact .inl ⟨hn.symm.trans h, nofun⟩
    | _ =>
      simp only [moved, hn] at h
      exact .inl ⟨h, nofun⟩

/-- A step keeps what transactions remember within the registered kinds. -/
theorem within_step (hw : w.Within) (step : Step) : (w.step step).Within := by
  intro n s hs
  rcases sessions_step_cases hs with ⟨hn, -⟩ | ⟨-, hnew⟩ | ⟨s₀, β, op, hn, rfl, rfl⟩
  · -- a session that does not move sees the registered kinds grow at most
    exact fun t ht => (hw n s hn t ht).mono fun name h => isRegistered_step hw step h
  · -- a session that is opened remembers nothing
    rcases hnew with ⟨-, rfl⟩ | ⟨order, -, rfl⟩
    · nofun
    · intro t ht
      exact Option.some.inj ht ▸ Transaction.within_of_empty rfl rfl
  · rw [store_act w hn]
    exact op.within_run s₀ (hw n s₀ hn)

/-- A run keeps what transactions remember within the registered kinds. -/
theorem within_run (hw : w.Within) (steps : List Step) : (w.run steps).Within := by
  induction steps generalizing w with
  | nil => exact hw
  | cons step steps ih => exact ih (within_step hw step)

/-- A kind stays registered. -/
theorem registered_run (hw : w.Within) (steps : List Step) {name : String}
    (h : w.store.isRegistered name = true) : (w.run steps).store.isRegistered name = true := by
  induction steps generalizing w with
  | nil => exact h
  | cons step steps ih => exact ih (within_step hw step) (isRegistered_step hw step h)

/-! ## Open transactions -/

/-- A number that is taken stays taken. -/
theorem taken_step {n : Nat} (h : w.sessions n ≠ none) (step : Step) :
    (w.step step).sessions n ≠ none := by
  obtain ⟨s, hs⟩ := Option.ne_none_iff_exists'.1 h
  rw [sessions_step]
  -- an operation leaves a session behind, and an opening passes a taken number by
  cases step with
  | register kind => exact h
  | act m op =>
    simp only [moved, hs]
    split <;> nofun
  | _ =>
    simp only [moved, hs]
    nofun

/-- How a transaction that is open behind a step got there: it was begun, or it was open and
    another session acted, or it was open and made an operation of its own. -/
theorem open?_step (hw : w.Within) {step : Step} {n : Nat} {t' : Transaction}
    (h : (w.step step).open? n = some t') :
    (step = .begin n t'.order ∧ w.sessions n = none ∧ t'.reads = ∅ ∧ t'.writes = ∅) ∨
      (w.open? n = some t' ∧ step.session? ≠ some n) ∨
      ∃ (t : Transaction) (β : Type) (op : Operation β), w.open? n = some t ∧ step = .act n op ∧
        op.ending? = none ∧ t' = op.advance t w.store := by
  obtain ⟨hs, ht'⟩ := open?_eq_some_iff.1 h
  rcases sessions_step_cases hs with ⟨hn, hsession⟩ | ⟨hn, hnew⟩ | ⟨s, β, op, hn, rfl, hstate⟩
  · exact .inr (.inl ⟨open?_eq_some_iff.2 ⟨hn, ht'⟩, hsession⟩)
  · -- nobody was there, so the transaction is a new one
    rcases hnew with ⟨-, hplain⟩ | ⟨order, rfl, hbegin⟩
    · cases hplain
    · cases hbegin
      exact .inl ⟨rfl, hn, rfl, rfl⟩
  · -- the transaction acts, and is open behind its operation
    obtain ⟨t, rfl, ht, hending, hadvance⟩ := op.open_of_run (hw n s hn) hstate.symm ht'
    exact .inr (.inr ⟨t, β, op, open?_eq_some_iff.2 ⟨hn, ht⟩, rfl, hending, hadvance⟩)

/-- A transaction that is open at the end of a run has been open since it was begun. -/
theorem open_of_run (hw : w.Within) {steps : List Step} {n : Nat} {t' : Transaction}
    (hn : w.sessions n ≠ none) (h : (w.run steps).open? n = some t') :
    ∃ t, w.open? n = some t := by
  induction steps generalizing w with
  | nil => exact ⟨t', h⟩
  | cons step steps ih =>
    obtain ⟨t, ht⟩ := ih (within_step hw step) (taken_step hn step) h
    rcases open?_step hw ht with ⟨-, hfree, -⟩ | ⟨hopen, -⟩ | ⟨t₀, _, _, hopen, -⟩
    · exact absurd hfree hn
    · exact ⟨t, hopen⟩
    · exact ⟨t₀, hopen⟩

/-! ## Versions -/

/-- The versions of all records are positive, and none is ahead of the store. -/
structure Sound (w : World) : Prop where
  within : w.Within
  positive : ∀ key r, w.store.record? key = some r → 0 < r.version.toNat
  le_version : ∀ key r, w.store.record? key = some r → r.version.toNat ≤ w.store.version.toNat

/-- A version that is seen is not ahead of the store either. -/
theorem Sound.seenVersion_le (hw : w.Sound) (key : RecordKey) :
    (Record.seenVersion (w.store.record? key)).toNat ≤ w.store.version.toNat := by
  cases hr : w.store.record? key with
  | none => exact Nat.zero_le _
  | some r => exact hw.le_version key r hr

/-- The version that stands for a record that is absent is that of no record. -/
theorem Sound.seenVersion_eq_zero_iff (hw : w.Sound) (key : RecordKey) :
    Record.seenVersion (w.store.record? key) = 0 ↔ w.store.record? key = none := by
  cases hr : w.store.record? key with
  | none => exact ⟨fun _ => rfl, fun _ => rfl⟩
  | some r =>
    -- a record that is there has a version above zero
    have hpos := hw.positive key r hr
    constructor
    · intro hzero
      rw [Record.seenVersion] at hzero
      rw [hzero] at hpos
      exact absurd hpos (by decide)
    · intro hnone
      cases hnone

/-- A world without sessions is sound if the versions of its records are. -/
theorem sound_on {store : Store}
    (hpositive : ∀ key r, store.record? key = some r → 0 < r.version.toNat)
    (hle : ∀ key r, store.record? key = some r → r.version.toNat ≤ store.version.toNat) :
    (on store).Sound :=
  ⟨within_on store, hpositive, hle⟩

/-- The empty store holds nothing. -/
theorem record?_empty (key : RecordKey) : Store.empty.record? key = none := by
  rw [Store.record?, Store.empty, Tables.empty, Std.ExtTreeMap.getElem?_empty]
  rfl

/-- Every run starts soundly. -/
theorem sound_init : init.Sound := by
  refine sound_on (fun key r h => ?_) (fun key r h => ?_)
  · cases (record?_empty key).symm.trans h
  · cases (record?_empty key).symm.trans h

/-- A run that takes fewer versions than there are leaves room, as the first store has used none. -/
theorem room_init {steps : List Step} (h : init.handedOut steps < UInt64.size) :
    init.store.version.toNat + init.handedOut steps < UInt64.size := by
  rw [show init.store.version.toNat = 0 from rfl, Nat.zero_add]
  exact h

/-- The next version is one more, as long as there is one. -/
private theorem toNat_succ {v : UInt64} (h : v.toNat + 1 < UInt64.size) :
    (v + 1).toNat = v.toNat + 1 := by
  rw [UInt64.toNat_add]
  exact Nat.mod_eq_of_lt h

/-- The next version is another one, even past the last. -/
private theorem succ_ne (v : UInt64) : v + 1 ≠ v := by
  intro h
  have hnat := congrArg UInt64.toNat h
  rw [UInt64.toNat_add, show (1 : UInt64).toNat = 1 from rfl] at hnat
  have hlt := v.toNat_lt
  omega

/-- While versions are left, a step that takes one counts on. -/
theorem version_step_toNat (hw : w.Within) (step : Step)
    (hroom : w.store.version.toNat + w.taken step < UInt64.size) :
    (w.step step).store.version.toNat = w.store.version.toNat + w.taken step := by
  rcases version_step hw step with h | h
  · rw [taken, if_pos h, h, Nat.add_zero]
  · have hne : (w.step step).store.version ≠ w.store.version := h ▸ succ_ne _
    rw [taken, if_neg hne] at hroom ⊢
    rw [h, toNat_succ hroom]

/-- A record behind a step is the one in front of it, unless the step writes it.  Then it
    bears the version that was just taken, if there still is one. -/
theorem record?_step_cases (hw : w.Within) {step : Step}
    (hroom : w.store.version.toNat + w.taken step < UInt64.size) (key : RecordKey) :
    (key ∉ w.writes step ∧ (w.step step).store.record? key = w.store.record? key) ∨
      (key ∈ w.writes step ∧ ∀ r, (w.step step).store.record? key = some r →
        r.version.toNat = w.store.version.toNat + 1 ∧
          (w.step step).store.version.toNat = w.store.version.toNat + 1) := by
  rw [Std.ExtTreeMap.mem_iff_isSome_getElem?, record?_step hw]
  -- the step writes the record, or leaves it alone
  cases hbody : (w.writes step)[key]? with
  | none => exact .inl ⟨nofun, rfl⟩
  | some body =>
    refine .inr ⟨rfl, fun r h => ?_⟩
    obtain ⟨json, rfl, rfl⟩ := Option.map_eq_some_iff.1 h
    have hversion := version_step_toNat hw step hroom
    have hne : (w.step step).store.version ≠ w.store.version :=
      version_step_of_body hw hbody ▸ succ_ne _
    rw [taken, if_neg hne] at hversion
    exact ⟨hversion, hversion⟩

/-- A step keeps a world sound, as long as a version is left for it. -/
theorem sound_step (hw : w.Sound) (step : Step)
    (hroom : w.store.version.toNat + w.taken step < UInt64.size) : (w.step step).Sound := by
  -- a record that is written bears the new version, and the others stay below it
  have hversion := version_step_toNat hw.within step hroom
  refine ⟨within_step hw.within step, fun key r h => ?_, fun key r h => ?_⟩
  · rcases record?_step_cases hw.within hroom key with ⟨-, hsame⟩ | ⟨-, hnew⟩
    · exact hw.positive key r (hsame ▸ h)
    · have := hnew r h
      omega
  · rcases record?_step_cases hw.within hroom key with ⟨-, hsame⟩ | ⟨-, hnew⟩
    · have := hw.le_version key r (hsame ▸ h)
      omega
    · have := hnew r h
      omega

/-- A run keeps a world sound, and takes the versions that its steps take. -/
theorem sound_run (hw : w.Sound) (steps : List Step)
    (hroom : w.store.version.toNat + w.handedOut steps < UInt64.size) :
    (w.run steps).Sound ∧
      (w.run steps).store.version.toNat = w.store.version.toNat + w.handedOut steps := by
  -- along the steps; each of them leaves the rest enough versions
  induction steps generalizing w with
  | nil => exact ⟨hw, rfl⟩
  | cons step steps ih =>
    rw [handedOut] at hroom ⊢
    have hversion := version_step_toNat hw.within step (by omega)
    obtain ⟨hsound, hrun⟩ := ih (sound_step hw step (by omega)) (by omega)
    exact ⟨hsound, hrun.trans (by omega)⟩

end World

end EntityStore
