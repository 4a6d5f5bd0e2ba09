import EntityStore.Proofs.Session.Conflict

/-! # Replaying a transaction

The events of a run tell which sessions were opened, and what each operation answered.  The
events of an open transaction can be replayed in any other world whose store agrees with all
that the transaction has looked at: every operation answers there what it answered in the
run, and the transaction remembers the same.  Ids of transactions are free to differ, since
no answer shows them.

* `Operation.run_relabel`  nothing but a transaction id depends on the id handed out last
* `World.trace`            the events of a run
* `World.replay`           the events of an open transaction, in another world
* `World.looked_agrees`    a store agrees with all that was looked at if a commit would pass -/

namespace EntityStore

/-! ## Transaction ids -/

namespace Store

/-- A store that has handed out another transaction id last. -/
def relabel (store : Store) (k : UInt64) : Store := { store with lastTransaction := k }

/-- A write does not look at the transaction id handed out last. -/
theorem write_relabel (store : Store) (k : UInt64) (key : RecordKey) (body : Option Json) :
    (store.relabel k).write key body =
      (store.write key body).map fun p => (p.1, p.2.relabel k) := by
  rw [write, write, show (store.relabel k).table key.kind = store.table key.kind from rfl]
  cases store.table key.kind with
  | error e => rfl
  | ok t => cases body <;> rfl

/-- The check of a commit does not look at the transaction id handed out last. -/
private theorem checkReads_relabel (store : Store) (k : UInt64) (l : List (RecordKey × UInt64)) :
    (store.relabel k).checkReads l = store.checkReads l := by
  induction l with
  | nil => rfl
  | cons p l ih =>
    rw [checkReads, checkReads, ih]
    rfl

/-- The writes of a commit do not look at the transaction id handed out last. -/
private theorem writeAll_relabel (store : Store) (k : UInt64)
    (l : List (RecordKey × Option Json)) :
    (store.relabel k).writeAll l = ((store.writeAll l).1, (store.writeAll l).2.relabel k) := by
  induction l generalizing store with
  | nil => rfl
  | cons p l ih =>
    rw [writeAll, writeAll, show (store.relabel k).table p.1.kind = store.table p.1.kind from rfl]
    cases store.table p.1.kind with
    | error e => rfl
    | ok t => exact ih (store.setTable p.1.kind (t.write p.1.id store.version p.2))

/-- A commit does the same whichever transaction id was handed out last. -/
theorem commit_relabel (store : Store) (k : UInt64) (order : CheckOrder) (reads : ReadSet)
    (writes : WriteSet) :
    (store.relabel k).commit order reads writes =
      ((store.commit order reads writes).1, (store.commit order reads writes).2.relabel k) := by
  rw [commit, commit, checkReads_relabel]
  cases store.checkReads (order.visit reads) with
  | error e => rfl
  | ok _ =>
    cases writes.isEmpty with
    | true => rfl
    | false => exact writeAll_relabel store.nextVersion k writes.toList

end Store

/-- Transactions that differ in their ids at most. -/
structure Transaction.Alike (t t' : Transaction) : Prop where
  status_eq : t'.status = t.status
  reads_eq : t'.reads = t.reads
  writes_eq : t'.writes = t.writes
  order_eq : t'.order = t.order

namespace Operation

variable {β : Type}

/-- Nothing that an operation does depends on the transaction id handed out last. -/
theorem run_relabel (op : Operation β) (s : Session) (store : Store) (k : UInt64) :
    op.run s (store.relabel k) =
      ⟨(op.run s store).result, (op.run s store).store.relabel k, (op.run s store).state⟩ := by
  -- no operation but a begin touches the id, so each one is run on both stores
  cases op with
  | load type id =>
    rw [run, run, Session.load, Session.load,
      show (store.relabel k).read ⟨type.kindName, id⟩ = store.read ⟨type.kindName, id⟩ from rfl]
    rcases s.active with e | _ | t
    · rfl
    · cases store.read ⟨type.kindName, id⟩ <;> rfl
    · simp only
      cases t.writes[(⟨type.kindName, id⟩ : RecordKey)]? with
      | some body => rfl
      -- what is not held back is read from the store
      | none => cases store.read ⟨type.kindName, id⟩ <;> rfl
  | save type entity =>
    rw [run, run, Session.save, Session.save,
      show (store.relabel k).table type.kindName = store.table type.kindName from rfl]
    cases type.encode entity with
    | error cause => rfl
    | ok body =>
      rcases s.active with e | _ | t
      · rfl
      · simp only [Store.write_relabel]
        cases store.write ⟨type.kindName, type.id entity⟩ (some body) <;> rfl
      · simp only
        cases store.table type.kindName <;> rfl
  | delete type id =>
    rw [run, run, Session.delete, Session.delete,
      show (store.relabel k).read ⟨type.kindName, id⟩ = store.read ⟨type.kindName, id⟩ from rfl]
    rcases s.active with e | _ | t
    · rfl
    · simp only [Store.write_relabel]
      cases store.write ⟨type.kindName, id⟩ none <;> rfl
    · simp only
      cases t.writes[(⟨type.kindName, id⟩ : RecordKey)]? with
      | some body => rfl
      | none => cases store.read ⟨type.kindName, id⟩ <;> rfl
  | query type start => rfl
  | finish ending =>
    cases ending with
    | rollback =>
      rw [run, run, Session.finish, Session.finish, Session.rollback, Session.rollback]
      rcases s.active with e | _ | t <;> rfl
    | commit =>
      rw [run, run, Session.finish, Session.finish, Session.commit, Session.commit]
      rcases s.active with e | _ | t
      · rfl
      · rfl
      · -- the check and the writes of a commit do not look at the id
        simp only [Store.commit_relabel]
        rcases store.commit t.order t.reads t.writes with ⟨e | _, store'⟩ <;> rfl

variable {t t' : Transaction}

/-- Transactions that are alike remember the same behind an operation. -/
theorem advance_alike (op : Operation β) (h : t.Alike t') (store : Store) :
    (op.advance t store).Alike (op.advance t' store) := by
  obtain ⟨id, status, reads, writes, order⟩ := t
  obtain ⟨id', status', reads', writes', order'⟩ := t'
  obtain ⟨rfl, rfl, rfl, rfl⟩ := h
  -- what is remembered of a record is its version, whatever the id of the transaction
  have hlook : ∀ key, ((⟨id, status', reads', writes', order'⟩ : Transaction).look store key).Alike
      ((⟨id', status', reads', writes', order'⟩ : Transaction).look store key) := by
    intro key
    rw [Transaction.look, Transaction.look]
    split <;> exact ⟨rfl, rfl, rfl, rfl⟩
  have hlooked : (op.looked ⟨id, status', reads', writes', order'⟩ store).Alike
      (op.looked ⟨id', status', reads', writes', order'⟩ store) := by
    rw [looked, looked]
    split
    · exact hlook _
    · exact ⟨rfl, rfl, rfl, rfl⟩
  rw [advance, advance]
  split
  · -- a change is held back, and anything else is at most looked at
    split
    · exact ⟨hlooked.status_eq, hlooked.reads_eq,
        congrArg (fun m : WriteSet => m.insert _ _) hlooked.writes_eq, hlooked.order_eq⟩
    · exact hlooked
  · exact hlooked

/-- No answer shows the id of a transaction, and the store does not keep it. -/
theorem run_alike (op : Operation β) (h : t.Alike t') (ht : t.status = .active)
    (store : Store) :
    (op.run ⟨some t'⟩ store).result = (op.run ⟨some t⟩ store).result ∧
      (op.run ⟨some t'⟩ store).store = (op.run ⟨some t⟩ store).store := by
  have hactive := Session.active_of_active ht
  have hactive' := Session.active_of_active (h.status_eq.trans ht)
  obtain ⟨id, status, reads, writes, order⟩ := t
  obtain ⟨id', status', reads', writes', order'⟩ := t'
  obtain ⟨rfl, rfl, rfl, rfl⟩ := h
  -- each operation looks at the status, the reads and the writes, which are the same
  cases op with
  | load type key =>
    rw [run, run, Session.load, Session.load, hactive, hactive']
    simp only
    cases writes'[(⟨type.kindName, key⟩ : RecordKey)]? with
    | some body => exact ⟨rfl, rfl⟩
    | none => cases store.read ⟨type.kindName, key⟩ <;> exact ⟨rfl, rfl⟩
  | save type entity =>
    rw [run, run, Session.save, Session.save, hactive, hactive']
    cases type.encode entity with
    | error cause => exact ⟨rfl, rfl⟩
    | ok body =>
      simp only
      cases store.table type.kindName <;> exact ⟨rfl, rfl⟩
  | delete type key =>
    rw [run, run, Session.delete, Session.delete, hactive, hactive']
    simp only
    cases writes'[(⟨type.kindName, key⟩ : RecordKey)]? with
    | some body => exact ⟨rfl, rfl⟩
    | none => cases store.read ⟨type.kindName, key⟩ <;> exact ⟨rfl, rfl⟩
  | query type start =>
    simp only [run, Session.query, Session.rowsFrom, hactive, hactive']
    exact ⟨rfl, trivial⟩
  | finish ending =>
    cases ending with
    | rollback =>
      rw [run, run, Session.finish, Session.finish, Session.rollback, Session.rollback, hactive,
        hactive']
      exact ⟨rfl, rfl⟩
    | commit =>
      rw [run, run, Session.finish, Session.finish, Session.commit, Session.commit, hactive,
        hactive']
      simp only
      -- the commit is made of the order, the reads and the writes
      rcases store.commit order' reads' writes' with ⟨e | _, store'⟩ <;> exact ⟨rfl, rfl⟩

/-- On a store that agrees with what it looks at, an operation of a transaction like the
    first one answers the same, and leaves transactions that are alike. -/
theorem run_elsewhere (op : Operation β) (hop : op.ending? = none) (hq : op.isQuery = false)
    (ht : t.status = .active) {store store' : Store} (hwithin : t.Within store)
    (halike : t.Alike t')
    (hregistered : ∀ name, store.isRegistered name = store'.isRegistered name)
    (hlook : ∀ key, op.Looks t store key → store.record? key = store'.record? key) :
    ∃ t'', (op.advance t store).Alike t'' ∧
      op.run ⟨some t'⟩ store' = ⟨(op.run ⟨some t⟩ store).result, store', ⟨some t''⟩⟩ := by
  -- the id changes no answer, and what is looked at is the same on both stores
  have hresult : (op.run ⟨some t'⟩ store').result = (op.run ⟨some t⟩ store).result :=
    (op.run_alike halike ht _).1.trans (op.run_congr hop hq ht hwithin hregistered hlook)
  have hwithin' : t'.Within store' :=
    ⟨fun key h => (hregistered key.kind).symm.trans (hwithin.reads key (halike.reads_eq ▸ h)),
      fun key h => (hregistered key.kind).symm.trans (hwithin.writes key (halike.writes_eq ▸ h))⟩
  obtain ⟨hstore, hstate⟩ := op.run_active hop (halike.status_eq.trans ht) hwithin'
  refine ⟨op.advance t' store', ?_, ?_⟩
  · rw [op.advance_congr hregistered hlook]
    exact op.advance_alike halike store'
  · rw [← hresult, ← hstate]
    exact congrArg (Outcome.mk _ · _) hstore

end Operation

/-! ## Events -/

/-- What happens in a step of a run. -/
inductive Event : Type 1 where
  /-- A plain session is opened. -/
  | opened (n : Nat)
  /-- A session with a new transaction is opened. -/
  | begun (n : Nat) (order : CheckOrder := .ascending)
  /-- An operation of a session answers. -/
  | answered {β : Type} (n : Nat) (op : Operation β) (answer : Except Error β)

namespace Event

/-- The session of an event. -/
def session : Event → Nat
  | .opened n => n
  | .begun n _ => n
  | .answered n _ _ => n

/-- The step that may lead to an event. -/
def step : Event → Step
  | .opened n => .plain n
  | .begun n order => .begin n order
  | .answered n op _ => .act n op

/-- Whether an event is a commit that succeeds. -/
def commits : Event → Bool
  | .answered _ (.finish .commit) (.ok _) => true
  | _ => false

/-- A commit of a session that succeeds. -/
def committed (n : Nat) : Event := .answered n (.finish .commit) (.ok ())

/-- Whether an event is the begin of the transaction of a session. -/
def begins (n : Nat) : Event → Bool
  | .begun m _ => m == n
  | _ => false

end Event

namespace World

/-- What happens in a step, if anything does. -/
def event? (w : World) : Step → Option Event
  | .register _ => none
  | .plain n =>
    match w.sessions n with
    | none => some (.opened n)
    | some _ => none
  | .begin n order =>
    match w.sessions n with
    | none => some (.begun n order)
    | some _ => none
  | .act n op =>
    match w.sessions n with
    | none => none
    | some s => some (.answered n op (op.run s w.store).result)

/-- The events of a run. -/
def trace (w : World) : List Step → List Event
  | [] => []
  | step :: steps => (w.event? step).toList ++ (w.step step).trace steps

variable {w : World} {n : Nat}

/-- The answers of two runs follow one another. -/
theorem trace_append (w : World) (a b : List Step) :
    w.trace (a ++ b) = w.trace a ++ (w.run a).trace b := by
  induction a generalizing w with
  | nil => rfl
  | cons step a ih => simp only [List.cons_append, trace, ih, run_cons, List.append_assoc]

/-- The answer to the last step comes last. -/
theorem trace_concat (w : World) (steps : List Step) (last : Step) :
    w.trace (steps ++ [last]) = w.trace steps ++ ((w.run steps).event? last).toList := by
  rw [trace_append, trace, trace, List.append_nil]

/-- The last step of a run comes last. -/
theorem run_concat (w : World) (steps : List Step) (last : Step) :
    w.run (steps ++ [last]) = (w.run steps).step last :=
  run_append w steps [last]

/-- The events of one session. -/
def eventsOf (w : World) (n : Nat) (steps : List Step) : List Event :=
  (w.trace steps).filter fun e => e.session == n

/-- The events of a session, up to the last step and of it. -/
theorem eventsOf_concat (w : World) (n : Nat) (steps : List Step) (last : Step) :
    w.eventsOf n (steps ++ [last]) =
      w.eventsOf n steps ++ ((w.run steps).event? last).toList.filter fun e => e.session == n := by
  rw [eventsOf, trace_concat, List.filter_append, eventsOf]

/-- The session of an event is open behind its step. -/
theorem taken_of_event {step : Step} {e : Event} (h : w.event? step = some e) :
    (w.step step).sessions e.session ≠ none := by
  rw [sessions_step]
  -- an event comes from an opening of a number that was free, or from an operation
  cases step with
  | register kind => cases h
  | plain m =>
    rw [event?] at h
    split at h
    · next hm =>
      obtain rfl := Option.some.inj h
      simp [moved, Event.session, hm]
    · cases h
  | begin m order =>
    rw [event?] at h
    split at h
    · next hm =>
      obtain rfl := Option.some.inj h
      simp [moved, Event.session, hm]
    · cases h
  | act m op =>
    rw [event?] at h
    split at h
    · cases h
    · -- a session that has answered is still there
      next s hm =>
      obtain rfl := Option.some.inj h
      simp [moved, Event.session, hm]

/-- An event of a session that is open already comes from an operation of it. -/
theorem event?_session {step : Step} {e : Event} (h : w.event? step = some e)
    (htaken : w.sessions n ≠ none) (hother : step.session? ≠ some n) : e.session ≠ n := by
  rintro rfl
  -- an operation tells of its own session, and an opening of a number that was free
  cases step with
  | register kind => cases h
  | act m op =>
    rw [event?] at h
    split at h
    · cases h
    · obtain rfl := Option.some.inj h
      exact hother rfl
  | _ =>
    rw [event?] at h
    split at h
    · next hm =>
      obtain rfl := Option.some.inj h
      exact htaken hm
    · cases h

/-- Of two moves of a session the later one stays. -/
@[simp] theorem put_put (w : World) (n : Nat) (s s' : Session) (store store' : Store) :
    (w.put n s store).put n s' store' = w.put n s' store' := by
  simp only [put, World.mk.injEq, true_and]
  funext m
  split <;> rfl

/-- The events of a session whose transaction makes an operation. -/
theorem eventsOf_act {steps : List Step} {s : Session} (h : (w.run steps).sessions n = some s)
    {β : Type} (op : Operation β) :
    w.eventsOf n (steps ++ [.act n op]) =
      w.eventsOf n steps ++ [.answered n op (op.run s (w.run steps).store).result] := by
  rw [eventsOf_concat, event?, h]
  simp [Event.session]

/-- A session that is open has no event while another one acts. -/
theorem eventsOf_of_other {steps : List Step} {last : Step} (h : (w.run steps).sessions n ≠ none)
    (hother : last.session? ≠ some n) : w.eventsOf n (steps ++ [last]) = w.eventsOf n steps := by
  rw [eventsOf_concat]
  cases he : (w.run steps).event? last with
  | none => simp
  | some e =>
    have hne := event?_session he h hother
    simp [hne]

/-- A session that has not been opened has no events. -/
theorem eventsOf_of_free {steps : List Step} (h : (w.run steps).sessions n = none) :
    w.eventsOf n steps = [] := by
  induction steps using List.reverseRecOn with
  | nil => rfl
  | append_singleton steps last ih =>
    rw [run_concat] at h
    have hfree : (w.run steps).sessions n = none :=
      Classical.byContradiction fun htaken => taken_step htaken last h
    rw [eventsOf_concat, ih hfree, List.nil_append]
    cases he : (w.run steps).event? last with
    | none => rfl
    | some e =>
      -- an event of the session would have taken its number
      have hne : e.session ≠ n := fun hn => taken_of_event he (hn ▸ h)
      simp [hne]

/-- A transaction starts with its begin. -/
theorem eventsOf_begin {steps : List Step} (h : (w.run steps).sessions n = none)
    (order : CheckOrder) : w.eventsOf n (steps ++ [.begin n order]) = [.begun n order] := by
  rw [eventsOf_concat, eventsOf_of_free h, event?, h]
  simp [Event.session]

/-- A step that leads to no event changes nothing. -/
theorem step_of_event?_none {step : Step} (hkinds : step.registers = false)
    (h : w.event? step = none) : w.step step = w := by
  cases step with
  | register kind => cases hkinds
  -- nobody is there who could act
  | act n op =>
    rw [World.step]
    cases hs : w.sessions n with
    | none => rfl
    | some s => simp only [event?, hs, reduceCtorEq] at h
  -- the number is taken, so nothing is opened
  | _ n =>
    rw [World.step]
    cases hs : w.sessions n with
    | none => simp only [event?, hs, reduceCtorEq] at h
    | some s => rfl

/-- A session is in a transaction if it was before, or if the step begins one. -/
private theorem begins_step (hw : w.Within) (step : Step) (n : Nat) :
    (((w.sessions n).any fun s => s.transaction.isSome) ||
        (w.event? step).toList.any (Event.begins n)) =
      (w.moved n step).any fun s => s.transaction.isSome := by
  cases step with
  | register kind => simp [event?, moved]
  | act m op =>
    -- the operation may be one of this session, which stays in its transaction
    by_cases h : n = m
    · subst h
      cases hn : w.sessions n with
      | none => simp [event?, moved, hn]
      | some s => simp [event?, moved, hn, Event.begins, op.isSome_transaction_run (hw n s hn)]
    · cases hn : w.sessions n <;> cases hm : w.sessions m <;>
        simp [event?, moved, hn, hm, h, Event.begins]
  -- an opening counts for the number that it gives out, if it was free
  | _ m =>
    by_cases h : n = m
    · subst h
      cases hn : w.sessions n <;>
        simp [event?, moved, hn, Event.begins, Session.plain, Session.begin]
    · cases hn : w.sessions n <;> cases hm : w.sessions m <;>
        simp [event?, moved, hn, hm, h, Ne.symm h, Event.begins]

/-- The sessions that were begun are those with a transaction. -/
theorem any_begins (hw : w.Within) (hfree : w.sessions n = none) (steps : List Step) :
    (w.trace steps).any (Event.begins n) =
      ((w.run steps).sessions n).any fun s => s.transaction.isSome := by
  induction steps using List.reverseRecOn with
  | nil =>
    rw [run_nil, hfree]
    rfl
  | append_singleton steps last ih =>
    rw [trace_concat, List.any_append, ih, run_concat, sessions_step,
      begins_step (within_run hw steps)]

/-! ## Agreement -/

/-- In the course of some steps session `n` looks at a record of the store and finds this. -/
def Looked (w : World) (n : Nat) (key : RecordKey) (found : Option Record) : List Step → Prop
  | [] => False
  | step :: steps =>
    (w.Looks n key step ∧ w.store.record? key = found) ∨ (w.step step).Looked n key found steps

/-- A record was looked at up to the last step, or by it. -/
theorem looked_concat (w : World) (n : Nat) (key : RecordKey) (found : Option Record)
    (steps : List Step) (last : Step) :
    w.Looked n key found (steps ++ [last]) ↔
      w.Looked n key found steps ∨
        ((w.run steps).Looks n key last ∧ (w.run steps).store.record? key = found) := by
  induction steps generalizing w with
  | nil => simp only [List.nil_append, Looked, or_false, false_or, run_nil]
  | cons step steps ih => simp only [List.cons_append, Looked, ih, run_cons, or_assoc]

/-- A session that has not been opened has not looked at anything. -/
theorem not_looked_of_free {key : RecordKey} {found : Option Record} {steps : List Step}
    (h : (w.run steps).sessions n = none) : ¬ w.Looked n key found steps := by
  induction steps generalizing w with
  | nil => exact id
  | cons step steps ih =>
    rintro (⟨hlooks, -⟩ | hlater)
    · obtain ⟨t, ht⟩ := hlooks.open?
      exact taken_run (taken_step (ne_none_of_open? ht) step) steps h
    · exact ih h hlater

/-- A store has the kinds of a world, and the records that session `n` found in some steps. -/
structure Agrees (w : World) (n : Nat) (steps : List Step) (store : Store) : Prop where
  kinds : ∀ name, store.isRegistered name = w.store.isRegistered name
  records : ∀ key found, w.Looked n key found steps → store.record? key = found

/-- No open transaction reads a whole kind. -/
def NoQuery (w : World) : List Step → Prop
  | [] => True
  | step :: steps => (∀ n, step.query? = some n → w.open? n = none) ∧ (w.step step).NoQuery steps

/-- There is no query in two runs if there is none in either. -/
theorem noQuery_append (w : World) (a b : List Step) :
    w.NoQuery (a ++ b) ↔ w.NoQuery a ∧ (w.run a).NoQuery b := by
  induction a generalizing w with
  | nil => exact ⟨fun h => ⟨trivial, h⟩, fun h => h.2⟩
  | cons step a ih => simp only [List.cons_append, NoQuery, ih, run_cons, and_assoc]

/-- An open transaction makes no query in a run without them. -/
theorem isQuery_eq_false {β : Type} {op : Operation β} {steps : List Step}
    (h : w.NoQuery (.act n op :: steps)) {t : Transaction} (hopen : w.open? n = some t) :
    op.isQuery = false := by
  have hfirst := h.1 n
  rw [hopen, Step.query?] at hfirst
  cases hq : op.isQuery with
  | false => rfl
  | true => cases hfirst (by rw [hq]; rfl)

/-- A run without registrations leaves the registered kinds as they are. -/
theorem isRegistered_run (hw : w.Within) {steps : List Step}
    (hkinds : ∀ step ∈ steps, step.registers = false) (name : String) :
    (w.run steps).store.isRegistered name = w.store.isRegistered name := by
  induction steps generalizing w with
  | nil => rfl
  | cons step steps ih =>
    have hstep := applied_step hw (hkinds step List.mem_cons_self)
    have hlater := ih (within_step hw step) fun s hs => hkinds s (List.mem_cons_of_mem _ hs)
    exact hlater.trans (hstep.isRegistered_eq name)

/-! ## Replay -/

/-- The events of an open transaction can be replayed in any world whose store agrees with
    what the transaction has looked at. -/
theorem replay (hw : w.Within) (hfree : w.sessions n = none) {steps : List Step}
    (hkinds : ∀ step ∈ steps, step.registers = false) (hquery : w.NoQuery steps)
    {t : Transaction} (hopen : (w.run steps).open? n = some t) {u : World}
    (hu : u.sessions n = none) (hagrees : w.Agrees n steps u.store) :
    u.trace ((w.eventsOf n steps).map Event.step) = w.eventsOf n steps ∧
      ∃ t' k, t.Alike t' ∧ u.run ((w.eventsOf n steps).map Event.step) =
        u.put n ⟨some t'⟩ (u.store.relabel k) := by
  -- on the last step: what it adds to the events is taken in the other world as well
  induction steps using List.reverseRecOn generalizing t with
  | nil => exact absurd hfree (ne_none_of_open? hopen)
  | append_singleton steps last ih =>
    have hwithin := within_run hw steps
    rw [run_concat] at hopen
    have hkinds' : ∀ step ∈ steps, step.registers = false := fun step hstep =>
      hkinds step (List.mem_append_left _ hstep)
    have hagrees' : w.Agrees n steps u.store :=
      ⟨hagrees.kinds, fun key found h => hagrees.records key found ((looked_concat ..).2 (.inl h))⟩
    rcases open?_step hwithin hopen with
      ⟨rfl, hnone, hreads, hwrites⟩ | ⟨hsame, hother⟩ | ⟨t₀, β, op, ht₀, rfl, hop, rfl⟩
    · -- the transaction begins
      rw [eventsOf_begin hnone]
      refine ⟨?_, ⟨u.store.lastTransaction + 1, .active, ∅, ∅, t.order⟩,
        u.store.lastTransaction + 1,
        ⟨(open?_eq_some_iff.1 hopen).2.symm, hreads.symm, hwrites.symm, rfl⟩, ?_⟩
      · simp only [List.map_cons, List.map_nil, Event.step, trace, event?, hu, Option.toList_some,
          List.append_nil]
      · simp only [List.map_cons, List.map_nil, Event.step, run_cons, run_nil, World.step, hu]
        rfl
    · -- another session acts
      rw [eventsOf_of_other (ne_none_of_open? hsame) hother]
      exact ih hkinds' ((noQuery_append ..).1 hquery).1 hsame hagrees'
    · -- the transaction makes an operation
      obtain ⟨hs, hactive⟩ := open?_eq_some_iff.1 ht₀
      obtain ⟨htrace, t', k, halike, hrun⟩ :=
        ih hkinds' ((noQuery_append ..).1 hquery).1 ht₀ hagrees'
      have hq : op.isQuery = false :=
        isQuery_eq_false ((noQuery_append ..).1 hquery).2 ht₀
      have hregistered : ∀ name, (w.run steps).store.isRegistered name =
          (u.store.relabel k).isRegistered name := fun name =>
        (isRegistered_run hw hkinds' name).trans (hagrees.kinds name).symm
      have hlook : ∀ key, op.Looks t₀ (w.run steps).store key →
          (w.run steps).store.record? key = (u.store.relabel k).record? key := fun key h =>
        (hagrees.records key _ ((looked_concat ..).2
          (.inr ⟨⟨rfl, t₀, ht₀, h⟩, rfl⟩))).symm
      have hmine : (u.put n ⟨some t'⟩ (u.store.relabel k)).sessions n = some ⟨some t'⟩ := by
        simp [put]
      obtain ⟨t'', halike', hagain⟩ := op.run_elsewhere hop hq hactive (hwithin n _ hs t₀ rfl)
        halike hregistered hlook
      rw [eventsOf_act hs, List.map_append, trace_append, run_append, htrace, hrun]
      refine ⟨?_, t'', k, halike', ?_⟩
      · simp only [List.map_cons, List.map_nil, Event.step, trace, event?, hmine, store_put,
          hagain, Option.toList_some, List.append_nil]
      · simp only [List.map_cons, List.map_nil, Event.step, run_cons, run_nil, World.step, hmine,
          store_put, hagain, put_put]

/-! ## What a passing commit shows -/

/-- No transaction that has found a record absent by a load looks it up in the store again.
    Once it has saved the record, the write that it holds back hides the one in the store. -/
def NoReload (w : World) : List Step → Prop
  | [] => True
  | step :: steps =>
    (∀ n key, step.load? = some (n, key) → w.Looks n key step → w.store.record? key = none →
        (w.step step).Unseen n key steps) ∧
      (w.step step).NoReload steps

/-- What is not loaded again in two runs is not loaded again in either. -/
theorem NoReload.append {a b : List Step} (h : w.NoReload (a ++ b)) :
    w.NoReload a ∧ (w.run a).NoReload b := by
  induction a generalizing w with
  | nil => exact ⟨trivial, h⟩
  | cons step a ih =>
    obtain ⟨hfirst, hrest⟩ := h
    obtain ⟨ha, hb⟩ := ih hrest
    refine ⟨⟨fun n key hload hlooks habsent => ?_, ha⟩, hb⟩
    exact ((unseen_append ..).1 (hfirst n key hload hlooks habsent)).1

/-- A first look is a look. -/
theorem FirstLook.looked {key : RecordKey} {steps before after : List Step} {step : Step}
    (h : w.FirstLook n key steps before step after) :
    w.Looked n key ((w.run before).store.record? key) steps := by
  obtain ⟨rfl, -, hlooks⟩ := h
  induction before generalizing w with
  | nil => exact .inl ⟨hlooks, rfl⟩
  | cons first before ih => exact .inr (ih hlooks)

/-- A write that is held back stays so while the transaction is open. -/
theorem pending_run (hw : w.Within) {t : Transaction} (hopen : w.open? n = some t)
    {key : RecordKey} (hpending : t.writes[key]? ≠ none) {steps : List Step} {t' : Transaction}
    (hopen' : (w.run steps).open? n = some t') : t'.writes[key]? ≠ none := by
  -- along the steps from the last one back, as the transaction at the end is what is known
  induction steps using List.reverseRecOn generalizing t' with
  | nil =>
    obtain rfl := Option.some.inj (hopen.symm.trans hopen')
    exact hpending
  | append_singleton steps last ih =>
    rw [run_concat] at hopen'
    rcases open?_step (within_run hw steps) hopen' with
      ⟨-, hfree, -⟩ | ⟨hsame, -⟩ | ⟨t₀, β, op, ht₀, -, -, rfl⟩
    · exact absurd hfree (taken_run (ne_none_of_open? hopen) steps)
    · exact ih hsame
    · -- an operation replaces a write that is held back, but takes none away
      rw [op.getElem?_writes_advance]
      split
      · split
        · nofun
        · exact ih ht₀
      · exact ih ht₀

/-- A record that a transaction found absent, and looks up in the store later on, was found
    by a load: after a delete the write that is held back would hide it. -/
private theorem load_of_again (hw : w.Within) {key : RecordKey} {steps before after : List Step}
    {step : Step} (hlook : w.FirstLook n key steps before step after) {t : Transaction}
    (hopen : (w.run steps).open? n = some t) (hnone : t.writes[key]? = none) :
    step.load? = some (n, key) := by
  obtain ⟨rfl, -, hlooks⟩ := hlook
  cases step with
  | act m op =>
    obtain ⟨rfl, t₀, ht₀, hkey, -, hreg⟩ := hlooks
    -- only loads and deletes look at a single record
    cases op with
    | load type id => rw [Step.load?, ← Option.some.inj hkey]
    | delete type id =>
      -- the delete is held back under this very address
      rw [run_append, run_cons] at hopen
      have hmid := within_run hw before
      have htaken := taken_step (ne_none_of_open? ht₀) (.act m (.delete type id))
      obtain ⟨t₁, ht₁⟩ := open_of_run (within_step hmid _) htaken hopen
      refine absurd hnone (pending_run (within_step hmid _) ht₁ ?_ hopen)
      rcases open?_step hmid ht₁ with
        ⟨-, hfree, -⟩ | ⟨-, hother⟩ | ⟨t₂, β, op, ht₂, hop, -, rfl⟩
      · exact absurd hfree (ne_none_of_open? ht₀)
      · exact absurd rfl hother
      · cases hop
        obtain rfl := Option.some.inj hkey
        rw [Operation.getElem?_writes_advance]
        simp only [Operation.change?, hreg, and_self, if_true]
        exact Option.some_ne_none _
    | _ => cases hkey
  | _ => cases hlooks

/-- A step does not bring back a version that was seen before. -/
private theorem known_step (hw : w.Sound) {step : Step}
    (hroom : w.store.version.toNat + w.taken step < UInt64.size) {key : RecordKey}
    {seen : UInt64} {found : Option Record} (hle : seen.toNat ≤ w.store.version.toNat)
    (hzero : seen = 0 → found = none)
    (hshown : Record.seenVersion (w.store.record? key) = seen → w.store.record? key = found) :
    seen.toNat ≤ (w.step step).store.version.toNat ∧ (seen = 0 → found = none) ∧
      (Record.seenVersion ((w.step step).store.record? key) = seen →
        (w.step step).store.record? key = found) := by
  have hversion := version_step_toNat hw.within _ hroom
  refine ⟨by omega, hzero, fun hsame => ?_⟩
  rcases record?_step_cases hw.within hroom key with ⟨-, hkept⟩ | ⟨-, hnew⟩
  · -- the step has left the record alone
    rw [hkept] at hsame ⊢
    exact hshown hsame
  · cases hr : (w.step step).store.record? key with
    | none =>
      rw [hr] at hsame
      exact (hzero hsame.symm).symm
    | some r =>
      -- the record has just been written, so its version is newer than the one seen
      have hlt := (hnew r hr).1
      rw [hr, Record.seenVersion] at hsame
      rw [hsame] at hlt
      omega

/-- What a transaction has found at an address stands behind the version that it remembers:
    as long as the store shows this version there, it holds what was found. -/
theorem looked_known (hw : w.Sound) (hfree : w.sessions n = none) {steps : List Step}
    (hroom : w.store.version.toNat + w.handedOut steps < UInt64.size)
    (hreload : w.NoReload steps) {t : Transaction} (hopen : (w.run steps).open? n = some t)
    {key : RecordKey} {found : Option Record} (hlooked : w.Looked n key found steps) :
    ∃ seen, t.reads[key]? = some seen ∧ seen.toNat ≤ (w.run steps).store.version.toNat ∧
      (seen = 0 → found = none) ∧
      (Record.seenVersion ((w.run steps).store.record? key) = seen →
        (w.run steps).store.record? key = found) := by
  induction steps using List.reverseRecOn generalizing t found with
  | nil => exact absurd hlooked id
  | append_singleton steps last ih =>
    rw [handedOut_append, handedOut, handedOut] at hroom
    rw [run_concat] at hopen ⊢
    obtain ⟨hsound, hversion⟩ := sound_run hw steps (by omega)
    have hstep : (w.run steps).store.version.toNat + (w.run steps).taken last < UInt64.size := by
      omega
    have hearlier {t : Transaction} (h : (w.run steps).open? n = some t) {found : Option Record}
        (hlooked : w.Looked n key found steps) := ih (by omega) hreload.append.1 h hlooked
    rcases open?_step hsound.within hopen with
      ⟨rfl, hnone, -⟩ | ⟨hsame, hother⟩ | ⟨t₀, β, op, ht₀, rfl, -, rfl⟩
    · -- the transaction has just begun
      rcases (looked_concat ..).1 hlooked with hlooked | ⟨hlooks, -⟩
      · exact absurd hlooked (not_looked_of_free hnone)
      · cases hlooks
    · -- another session acts
      rcases (looked_concat ..).1 hlooked with hlooked | ⟨hlooks, -⟩
      · obtain ⟨seen, hseen, hle, hzero, hshown⟩ := hearlier hsame hlooked
        exact ⟨seen, hseen, known_step hsound hstep hle hzero hshown⟩
      · exact absurd hlooks.session? hother
    · -- the transaction makes an operation
      rw [op.getElem?_reads_advance]
      rcases (looked_concat ..).1 hlooked with hlooked | ⟨⟨-, t₁, ht₁, hlooks⟩, rfl⟩
      · obtain ⟨seen, hseen, hle, hzero, hshown⟩ := hearlier ht₀ hlooked
        exact ⟨seen, by rw [hseen, Option.some_or], known_step hsound hstep hle hzero hshown⟩
      · obtain rfl := Option.some.inj (ht₀.symm.trans ht₁)
        have hhistory := reads_history hw.within hfree ht₀ key
        rw [if_pos hlooks]
        cases hseen : t₀.reads[key]? with
        | none =>
          -- the first look, whose version is remembered
          exact ⟨_, Option.none_or, known_step hsound hstep (hsound.seenVersion_le key)
            (hsound.seenVersion_eq_zero_iff key).1 fun _ => rfl⟩
        | some seen =>
          -- a later look, which the version of the first one stands for
          rw [hseen] at hhistory
          obtain ⟨before, step, after, hlook, hfirst⟩ := hhistory
          obtain ⟨seen', hseen', hle, hzero, -⟩ := hearlier ht₀ hlook.looked
          obtain rfl := Option.some.inj (hseen.symm.trans hseen')
          refine ⟨seen, Option.some_or, known_step hsound hstep hle (fun hz => ?_) fun _ => rfl⟩
          -- the record was absent at the first look, so it must not be looked at again
          have hload := load_of_again hw.within hlook ht₀ hlooks.2.1
          have hagain : (w.run steps).Looks n key (.act n op) := ⟨rfl, t₀, ht₀, hlooks⟩
          obtain ⟨rfl, -, hfirst⟩ := hlook
          rw [List.append_assoc] at hreload
          have hunseen := hreload.append.2.1 n key hload hfirst (hzero hz)
          rw [run_append] at hagain
          exact absurd hagain ((unseen_append ..).1 hunseen).2.1

/-- When a transaction passes the check at its commit, the store holds all that it found. -/
theorem looked_agrees (hw : w.Sound) (hfree : w.sessions n = none) {steps : List Step}
    (hroom : w.store.version.toNat + w.handedOut steps < UInt64.size)
    (hkinds : ∀ step ∈ steps, step.registers = false) (hreload : w.NoReload steps)
    {t : Transaction} (hopen : (w.run steps).open? n = some t)
    (hfresh : ∀ (key : RecordKey) (seen : UInt64), t.reads[key]? = some seen →
      Record.seenVersion ((w.run steps).store.record? key) = seen) :
    w.Agrees n steps (w.run steps).store := by
  refine ⟨isRegistered_run hw.within hkinds, fun key found hlooked => ?_⟩
  obtain ⟨seen, hseen, -, -, hshown⟩ := looked_known hw hfree hroom hreload hopen hlooked
  exact hshown (hfresh key seen hseen)

end World

end EntityStore
