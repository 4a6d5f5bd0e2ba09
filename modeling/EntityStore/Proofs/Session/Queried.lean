import EntityStore.Proofs.Session.Repeat
import EntityStore.Proofs.Session.Rows

/-! # Queries in a transaction

A query in a transaction reads the records of a kind, but the transaction remembers no version
of them.  So a record that was only read by queries may change before the commit, and only a
load or a delete of it puts it under the check.

* `World.Queries`             a query of a transaction returns a row of the store
* `World.run_without_queries` the queries of a session leave no trace in a run
* `Session.record_of_query`   a row that is not held back is a record of the store
* `World.commit_of_queried`   which changes of a record that a query returned are noticed -/

namespace EntityStore

/-- A query leaves its session and the store as they are. -/
theorem Operation.run_query {β : Type} {op : Operation β} (h : op.isQuery = true) (s : Session)
    (store : Store) : (op.run s store).store = store ∧ (op.run s store).state = s := by
  cases op with
  | query type start => exact ⟨rfl, rfl⟩
  | _ => cases h

/-! ## Rows and records -/

namespace Session

variable {α : Type} {t : Transaction} {store : Store} {type : EntityType α} {row : Row α}

/-- A row that a query returns is a record of the store, if no write is held back for it. -/
theorem record_of_query {start : Option Cursor} {q : Query α}
    (h : (Session.mk (some t)).query store type start = .ok q) (hrow : row ∈ q.rows)
    (hnone : t.writes[(⟨type.kindName, row.id⟩ : RecordKey)]? = none) :
    ∃ r, store.record? ⟨type.kindName, row.id⟩ = some r ∧ RowOf type (row.id, r) row := by
  obtain ⟨r, hr, hof⟩ := visible_of_query h hrow
  rw [visible?, held?, Option.bind_some, hnone] at hr
  exact ⟨r, hr, hof⟩

end Session

namespace World

variable {α : Type} {w : World} {n : Nat}

/-- In the course of some steps a query of session `n` returns a row.  The transaction of the
    session holds no write back that the row could stem from. -/
structure Queries (w : World) (n : Nat) (type : EntityType α) (start : Option Cursor)
    (row : Row α) (steps before after : List Step) : Prop where
  split : steps = before ++ .act n (.query type start) :: after
  returned : ∃ q, (w.run before).event? (.act n (.query type start)) =
    some (.answered n (.query type start) (.ok q)) ∧ row ∈ q.rows
  unwritten : ∃ t, (w.run before).open? n = some t ∧
    t.writes[(⟨type.kindName, row.id⟩ : RecordKey)]? = none

/-! ## Queries leave no trace -/

/-- The query of a session changes nothing in the world. -/
theorem step_of_query {step : Step} (h : step.query? = some n) : w.step step = w := by
  cases step with
  | act m op =>
    rw [Step.query?, Option.ite_none_right_eq_some] at h
    rw [World.step]
    cases hs : w.sessions m with
    | none => rfl
    | some s =>
      obtain ⟨hstore, hstate⟩ := op.run_query h.1 s w.store
      -- the session is put back as it was
      simp only [hstore, hstate, put]
      congr 1
      funext k
      split
      · next hk => rw [hk, hs]
      · rfl
  | _ => cases h

/-- A run ends in the same way without the queries of a session. -/
theorem run_without_queries (w : World) (n : Nat) (steps : List Step) :
    w.run (steps.filter fun step => step.query? ≠ some n) = w.run steps := by
  induction steps generalizing w with
  | nil => rfl
  | cons step steps ih =>
    by_cases h : step.query? = some n
    · rw [List.filter_cons_of_neg (by simpa using h), ih, run_cons, step_of_query h]
    · rw [List.filter_cons_of_pos (by simpa using h), run_cons, ih, run_cons]

/-! ## The commit -/

/-- What the commit of a transaction makes of a record that one of its queries returned.  The
    row was read from the store, and the query leaves no trace.  If the transaction also looks
    at the record, and finds what the query found, the commit conflicts when others touch the
    record behind that look.  If it never looks at the record, the commit does not conflict on
    its account, whatever others do to it. -/
theorem commit_of_queried {type : EntityType α} {start : Option Cursor} {row : Row α}
    {steps before after : List Step} (hroom : init.handedOut steps < UInt64.size) {s : Session}
    (hs : (init.run steps).sessions n = some s) (hactive : s.isActive = true)
    (hqueries : init.Queries n type start row steps before after) :
    (∃ r, (init.run before).store.record? ⟨type.kindName, row.id⟩ = some r ∧
        Session.RowOf type (row.id, r) row) ∧
      init.run (steps.filter fun step => step.query? ≠ some n) = init.run steps ∧
      (∀ earlier look later, init.FirstLook n ⟨type.kindName, row.id⟩ steps earlier look later →
        (init.run earlier).store.record? ⟨type.kindName, row.id⟩ =
          (init.run before).store.record? ⟨type.kindName, row.id⟩ →
        (init.run (earlier ++ [look])).TouchedByOthers n ⟨type.kindName, row.id⟩ later →
        ∃ reason, (s.commit (init.run steps).store).result =
          .error (.transactionConflict reason)) ∧
      (init.Unseen n ⟨type.kindName, row.id⟩ steps →
        (∀ key, key ≠ ⟨type.kindName, row.id⟩ → ¬ init.Stale n key steps) →
        (s.commit (init.run steps).store).result = .ok ()) := by
  obtain ⟨-, ⟨q, hq, hrow⟩, t₀, ht₀, hnone⟩ := hqueries
  obtain ⟨hs₀, -⟩ := open?_eq_some_iff.1 ht₀
  simp only [event?, hs₀, Operation.run, Option.some.injEq, Event.answered.injEq, heq_eq_eq,
    true_and] at hq
  -- no write was held back for the row, so it is the record of the store
  have hread := Session.record_of_query hq hrow hnone
  refine ⟨hread, run_without_queries .., fun earlier look later hlook hfound htouched => ?_,
    fun hunseen hothers => ?_⟩
  · -- the record was there at the look, and has been touched since
    obtain ⟨r, hr, -⟩ := hread
    refine conflict_of_stale sound_init rfl (room_init hroom) hs hactive
      ⟨earlier, look, later, hlook, ?_⟩
    rw [hfound, hr]
    exact htouched
  · -- nothing is remembered of the record, and nothing that is out of date of the others
    obtain ⟨t, rfl, ht⟩ := Session.isActive_iff.1 hactive
    have hopen : (init.run steps).open? n = some t := open?_eq_some_iff.2 ⟨hs, ht⟩
    have hwithin : t.Within (init.run steps).store :=
      within_run (within_on _) steps n _ hs t rfl
    rw [Session.commit_of_fresh ht hwithin fun key seen hseen => ?_]
    refine Decidable.byContradiction fun hold => ?_
    have hstale := (stale_iff sound_init rfl (room_init hroom) hopen key).2 ⟨seen, hseen, hold⟩
    by_cases h : key = ⟨type.kindName, row.id⟩
    · exact not_stale_of_unseen hunseen (h ▸ hstale)
    · exact hothers key h hstale

/-- A transaction queries the notes, and loads one of them before it is saved again. -/
def loadedToo : List Step :=
  [.register Note.type.kind, .plain 0, .act 0 (.save Note.type (Note.of "a" "one")), .begin 1,
    .act 1 (.query Note.type none), .act 1 (.load Note.type "a"),
    .act 0 (.save Note.type (Note.of "a" "two"))]

/-- The row of a query is loaded as well and overwritten behind the load, so the commit is
    refused. -/
theorem commit_of_queried_loadedToo :
    ∃ s, (init.run loadedToo).sessions 1 = some s ∧ s.isActive = true ∧
      init.Queries 1 Note.type none (Note.row "a" 1 "one") loadedToo (loadedToo.take 4)
        (loadedToo.drop 5) ∧
      ∃ reason, (s.commit (init.run loadedToo).store).result =
        .error (.transactionConflict reason) := by
  have hsome : ((init.run loadedToo).sessions 1).isSome = true := by decide +kernel
  have hs : (init.run loadedToo).sessions 1 = some (((init.run loadedToo).sessions 1).get hsome) :=
    (Option.some_get hsome).symm
  have hopen : ((init.run (loadedToo.take 4)).open? 1).isSome = true := by decide +kernel
  have hqueries : init.Queries 1 Note.type none (Note.row "a" 1 "one") loadedToo
      (loadedToo.take 4) (loadedToo.drop 5) :=
    ⟨rfl, ⟨⟨"Note", [Note.row "a" 1 "one"]⟩, rfl, List.mem_singleton_self _⟩,
      _, (Option.some_get hopen).symm, rfl⟩
  refine ⟨_, hs, rfl, hqueries, ?_⟩
  -- the load that follows the query is the first look at the record
  refine (commit_of_queried (by decide +kernel) hs rfl hqueries).2.2.1 (loadedToo.take 5)
    (.act 1 (.load Note.type "a")) (loadedToo.drop 6) ⟨rfl, ?_, ?_⟩ ?_ ?_
  · simp [loadedToo, Unseen, Looks, Operation.Looks, Operation.key?]
  · exact ⟨rfl, _, (Option.some_get hopen).symm, rfl, rfl, by decide +kernel⟩
  · rfl
  · -- the save of the plain session touches it
    exact .inl ⟨by simp [Step.session?], by decide +kernel⟩

/-- A transaction queries the notes, and copies one of them that is saved again in between. -/
def copied : List Step :=
  [.register Note.type.kind, .plain 0, .act 0 (.save Note.type (Note.of "a" "one")), .begin 1,
    .act 1 (.query Note.type none), .act 0 (.save Note.type (Note.of "a" "two")),
    .act 1 (.save Note.type (Note.of "b" "copy of a: one"))]

/-- The commit succeeds although the note that was read has been saved again. -/
theorem queried_unprotected_copied :
    ∃ s, (init.run copied).sessions 1 = some s ∧ s.isActive = true ∧
      init.Queries 1 Note.type none (Note.row "a" 1 "one") copied (copied.take 4)
        (copied.drop 5) ∧
      (init.run (copied.take 5)).TouchedByOthers 1 ⟨"Note", "a"⟩ (copied.drop 5) ∧
      (s.commit (init.run copied).store).result = .ok () := by
  have hsome : ((init.run copied).sessions 1).isSome = true := by decide +kernel
  have hopen : ((init.run (copied.take 4)).open? 1).isSome = true := by decide +kernel
  refine ⟨_, (Option.some_get hsome).symm, rfl, ⟨rfl, ⟨⟨"Note", [Note.row "a" 1 "one"]⟩, rfl,
    List.mem_singleton_self _⟩, _, (Option.some_get hopen).symm, rfl⟩, ?_, rfl⟩
  exact .inl ⟨by simp [Step.session?], by decide +kernel⟩

end World

end EntityStore
