import EntityStore.Proofs.Page.Position
import EntityStore.Proofs.Query.Search
import EntityStore.Proofs.Session.Conflict
import EntityStore.Proofs.System.Client

/-! # Finished transactions

A transaction that has been committed or rolled back takes part in nothing any more.  Its
session refuses every operation on data, a collection that it is passed to does so too, and
neither the store nor the session changes.  One thing is let through: a query from the
position behind the last record finds nothing, and the transaction is not asked.

* `Session.Finished`             a session whose transaction is committed or rolled back
* `Operation.Sensible`           an operation on data that has nothing else against it
* `Operation.run_of_finished`    it is refused, unless it starts at the end
* `Access.on_of_error`           an access fails as its operation does
* `Session.refused_of_finished`  what a finished transaction refuses, and what it lets through -/

namespace EntityStore

/-- The transaction of a session has been committed or rolled back. -/
def Session.Finished (s : Session) : Prop :=
  s.status = some .committed ∨ s.status = some .rolledBack

instance (s : Session) : Decidable s.Finished := inferInstanceAs (Decidable (_ ∨ _))

/-- A session is finished if its transaction is not open any more. -/
theorem Session.finished_iff {s : Session} :
    s.Finished ↔ ∃ t, s = ⟨some t⟩ ∧ t.status ≠ .active := by
  obtain ⟨transaction⟩ := s
  cases transaction with
  | none => simp [Finished, status]
  | some t => cases h : t.status <;> simp [Finished, status, h]

namespace Operation

variable {β : Type}

/-- An operation on data that has nothing against it but the state of its session: the kind is
    registered, an entity to save has a body, and the cursor of a query is one of the kind. -/
def Sensible : Operation β → Store → Prop
  | .load type _, store => store.isRegistered type.kindName = true
  | .save type entity, store =>
    store.isRegistered type.kindName = true ∧ ∃ body, type.encode entity = .ok body
  | .delete type _, store => store.isRegistered type.kindName = true
  | .query type start, store => store.isRegistered type.kindName = true ∧
    ∀ cursor ∈ start, ∃ p, Position.decodeFor cursor type.kindName = .ok p
  | .finish _, _ => False

/-- A query from the position behind the last record. -/
def StartsAtEnd : Operation β → Prop
  | .query type start =>
    ∃ cursor ∈ start, Position.decodeFor cursor type.kindName = .ok (.atEnd type.kindName)
  | _ => False

end Operation

/-! ## Refusals -/

namespace Session

variable {α : Type} {t : Transaction} {store : Store}

/-- A finished transaction reads no rows. -/
theorem rowsFrom_of_finished (ht : t.status ≠ .active) {type : EntityType α}
    (hregistered : store.isRegistered type.kindName = true) (start : Option String) :
    (Session.mk (some t)).rowsFrom store type start = .error .transactionNotActive := by
  obtain ⟨table, -, htable⟩ := Store.table_of_registered hregistered
  simp only [rowsFrom, Store.readFrom, htable, active_of_finished ht, bind, Except.bind,
    Except.map]

/-- A cursor that was made for a kind says the kind. -/
theorem kind_of_decodeFor {cursor : Cursor} {kind : String} {p : Position}
    (h : Position.decodeFor cursor kind = .ok p) : p.kind = kind := by
  simp only [Position.decodeFor, bind, Except.bind] at h
  split at h
  · cases h
  · split at h
    · -- the kind of the position was compared with the one asked for
      next hkind =>
      obtain rfl := Except.ok.inj h
      exact hkind
    · cases h

/-- A query in a finished transaction is refused when it comes to read rows. -/
theorem query_of_finished (ht : t.status ≠ .active) {type : EntityType α}
    {start : Option Cursor} (h : (Operation.query type start).Sensible store)
    (hstart : ¬ (Operation.query type start).StartsAtEnd) :
    (Session.mk (some t)).query store type start = .error .transactionNotActive := by
  obtain ⟨hregistered, hcursor⟩ := h
  cases start with
  | none =>
    simp only [query, rowsFrom_of_finished ht hregistered, bind, Except.bind]
  | some cursor =>
    obtain ⟨⟨kind, nextId⟩, hp⟩ := hcursor cursor rfl
    cases nextId with
    | none =>
      -- this is the position at the end, as the kind is the right one
      obtain rfl : kind = type.kindName := kind_of_decodeFor hp
      exact absurd ⟨cursor, rfl, hp⟩ hstart
    | some id =>
      simp only [query, hp, rowsFrom_of_finished ht hregistered, bind, Except.bind]

/-- A query from the position behind the last record finds nothing, in any session. -/
theorem query_atEnd (s : Session) {type : EntityType α}
    (hregistered : store.isRegistered type.kindName = true) {cursor : Cursor}
    (hcursor : Position.decodeFor cursor type.kindName = .ok (.atEnd type.kindName)) :
    s.query store type (some cursor) = .ok ⟨type.kindName, []⟩ := by
  obtain ⟨table, -, htable⟩ := Store.table_of_registered hregistered
  simp only [query, hcursor, Position.atEnd, htable, bind, Except.bind, pure, Except.pure]

end Session

/-- A finished transaction refuses every operation on data but a query from the end. -/
theorem Operation.run_of_finished {β : Type} (op : Operation β) {t : Transaction}
    (ht : t.status ≠ .active) {store : Store} (h : op.Sensible store) (hstart : ¬ op.StartsAtEnd) :
    op.run ⟨some t⟩ store = ⟨.error .transactionNotActive, store, ⟨some t⟩⟩ := by
  have hactive := Session.active_of_finished ht
  cases op with
  | load type id => simp only [run, Session.load, hactive]
  -- the entity is encoded before the transaction is looked at
  | save type entity =>
    obtain ⟨-, body, hbody⟩ := h
    simp only [run, Session.save, hbody, hactive]
  | delete type id => simp only [run, Session.delete, hactive]
  | query type start => simp only [run, Session.query_of_finished ht h hstart]
  | finish ending => exact absurd h id

namespace Access

variable {β : Type} {s s' : Session} {store store' : Store}

/-- The page that is asked for, if any, is of an admissible size. -/
def Fits : Access β → Prop
  | .find c request _ => c.setup.config.checkPageSize request = .ok ()
  | _ => True

/-- An access that has nothing against it but the state of its session. -/
def Sensible (a : Access β) (store : Store) : Prop := a.operation.2.Sensible store ∧ a.Fits

/-- An access fails as its operation does. -/
theorem on_of_error (a : Access β) {e : Error} (h : a.Fits)
    (hrun : a.operation.2.run s store = ⟨.error e, store', s'⟩) :
    a.on s store = ⟨.error e, store', s'⟩ := by
  -- an access asks nothing of the store but its operation
  cases a with
  | get c id =>
    have hload : s.load store c.type id = ⟨.error e, store', s'⟩ := hrun
    rw [on, Collection.getOn, hload]
    rfl
  | put c entity => exact hrun
  | delete c id => exact hrun
  | find c request pred =>
    have hsize : c.setup.config.checkPageSize request = .ok () := h
    simp only [operation, Operation.run, Outcome.mk.injEq] at hrun
    obtain ⟨hquery, rfl, rfl⟩ := hrun
    simp only [on, Collection.findOn, hsize, hquery, bind, Except.bind]

end Access

namespace Session

/-- In a session whose transaction has finished, and in a collection that the transaction is
    passed to, everything that touches data is refused, and changes neither the store nor the
    session.  The exception is a query from the position behind the last record, which finds
    nothing and changes nothing. -/
theorem refused_of_finished {s : Session} (hs : s.Finished) (store : Store) :
    (∀ (β : Type) (op : Operation β), op.Sensible store → ¬ op.StartsAtEnd →
      op.run s store = ⟨.error .transactionNotActive, store, s⟩) ∧
    (∀ (β : Type) (a : Access β) (t : TransactionalHandle), t.session = s → a.Sensible store →
      ¬ a.operation.2.StartsAtEnd →
      a.inside (some (.own t)) store = ⟨.error .transactionNotActive, store, some (.own t)⟩) ∧
    ∀ (α : Type) (c : Collection α) (cursor : Cursor),
      (Operation.query c.type (some cursor)).Sensible store →
      (Operation.query c.type (some cursor)).StartsAtEnd →
      (Operation.query c.type (some cursor)).run s store = ⟨.ok ⟨c.type.kindName, []⟩, store, s⟩ ∧
      ∀ (t : TransactionalHandle) (request : Page) (pred : α → Bool), t.session = s →
        request.current = some cursor → c.setup.config.checkPageSize (some request) = .ok () →
        c.findIn (some (.own t)) store (some request) pred =
          ⟨.ok ⟨[], some (request.fill (some (Position.atEnd c.type.kindName).encode) none 0)⟩,
            store, some (.own t)⟩ := by
  obtain ⟨transaction, rfl, hfinished⟩ := finished_iff.1 hs
  refine ⟨fun β op h hstart => op.run_of_finished hfinished h hstart,
    fun β a t ht h hstart => ?_, fun α c cursor h hend => ?_⟩
  · -- a DAO asks the session of the handle, and hands its refusal on
    have hrun : a.operation.2.run t.session store = _ :=
      ht ▸ a.operation.2.run_of_finished hfinished h.1 hstart
    rw [a.inside_eq, CallerTransaction.run, CallerTransaction.expect]
    simp only [a.on_of_error h.2 hrun, Outcome.mapState]
    rfl
  · obtain ⟨_, ⟨⟩, hcursor⟩ := hend
    have hquery (s : Session) := s.query_atEnd h.1 hcursor
    refine ⟨by rw [Operation.run, hquery], fun t request pred ht hcurrent hsize => ?_⟩
    -- no row is left to be searched
    simp only [Collection.findIn, CallerTransaction.run, CallerTransaction.expect,
      Collection.findOn, hsize, Option.bind_some, hcurrent, hquery, bind, Except.bind,
      Query.search_nil]
    rfl

/-- A transaction behind a handle has loaded a note that is saved again, and loses its commit. -/
def late : Outcome TransactionalHandle Unit :=
  let w := World.init.run World.crossing
  TransactionalHandle.finish ⟨⟨(w.sessions 1).getD .plain, true⟩, rfl⟩ .commit w.store

/-- A transaction that lost its commit refuses a save, a query and a search. -/
theorem refused_of_finished_late :
    late.result =
        .error (.transactionConflict "Note:a changed since read (read version 1, now 2)") ∧
      late.state.session.Finished ∧
      (Operation.save Note.type (Note.of "a" "three")).run late.state.session late.store =
        ⟨.error .transactionNotActive, late.store, late.state.session⟩ ∧
      (Operation.query Note.type (some (Position.before "Note" "a").encode)).run
          late.state.session late.store =
        ⟨.error .transactionNotActive, late.store, late.state.session⟩ ∧
      (Access.find ⟨Note.type, {}⟩ (some (.first 2)) fun _ => true).inside (some (.own late.state))
          late.store = ⟨.error .transactionNotActive, late.store, some (.own late.state)⟩ := by
  have hfinished : late.state.session.Finished := by decide +kernel
  have hregistered : late.store.isRegistered Note.type.kindName = true := by decide +kernel
  have hcursor := Position.decodeFor_encode (.before "Note" "a")
  obtain ⟨hoperation, haccess, -⟩ := refused_of_finished hfinished late.store
  refine ⟨rfl, hfinished, hoperation _ _ ⟨hregistered, _, rfl⟩ id, hoperation _ _ ⟨hregistered, ?_⟩
    ?_, haccess _ _ late.state rfl ⟨⟨hregistered, nofun⟩, rfl⟩ ?_⟩
  · -- the cursor is one of the kind, and not at its end
    rintro cursor ⟨⟩
    exact ⟨_, hcursor⟩
  · rintro ⟨cursor, ⟨⟩, hend⟩
    cases hend.symm.trans hcursor
  · rintro ⟨cursor, ⟨⟩, -⟩

/-- A transaction that is rolled back at once. -/
def rolledBack : List Step :=
  [.register Note.type.kind, .begin 0, .act 0 (.finish .rollback)]

/-- The query is answered, with no word of the transaction that has finished. -/
theorem answered_atEnd_rolledBack :
    ∃ s, (World.init.run rolledBack).sessions 0 = some s ∧ s.Finished ∧
      (Operation.query Note.type (some (Position.atEnd "Note").encode)).Sensible
        (World.init.run rolledBack).store ∧
      ((Operation.query Note.type (some (Position.atEnd "Note").encode)).run s
        (World.init.run rolledBack).store).result = .ok ⟨"Note", []⟩ := by
  have hsome : ((World.init.run rolledBack).sessions 0).isSome = true := by decide +kernel
  have hregistered :
      (World.init.run rolledBack).store.isRegistered Note.type.kindName = true := by
    decide +kernel
  have hcursor := Position.decodeFor_encode (.atEnd "Note")
  refine ⟨_, (Option.some_get hsome).symm, .inr rfl, ⟨hregistered, ?_⟩, ?_⟩
  · rintro cursor ⟨⟩
    exact ⟨_, hcursor⟩
  · exact query_atEnd _ hregistered hcursor

end Session

end EntityStore
