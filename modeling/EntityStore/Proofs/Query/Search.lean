import EntityStore.Proofs.Scan.Ahead
import EntityStore.Query.Search

/-! # What a search finds

The rows of a query that satisfy a predicate decide everything that a search answers: the
items, the cursors in front of and behind a page, and whether there is a page behind.  Rows
that do not satisfy it leave no trace.

* `Query.ahead_start`   the scan of a search has the matching rows ahead
* `Query.search_some`   the page of a request
* `Query.following?_search`  the page behind it
* `Query.search_none`   everything, without a request -/

namespace EntityStore

namespace Query

variable {α : Type}

/-- The query of the rows that satisfy a predicate. -/
def selected (q : Query α) (pred : α → Bool) : Query α :=
  { q with rows := q.rows.filter fun row => pred row.entity }

/-- The query behind its first `n` rows. -/
def drop (q : Query α) (n : Nat) : Query α := { q with rows := q.rows.drop n }

/-- The cursor and the entity of each row, as a scan hands them out. -/
def marked (kind : String) (rows : List (Row α)) : List (Cursor × α) :=
  rows.map fun row => ((Position.before kind row.id).encode, row.entity)

/-- The first of some rows, marked with their cursors, has the cursor of their query. -/
theorem cursorOf_marked (kind : String) (rows : List (Row α)) :
    Scan.cursorOf (Position.atEnd kind).encode (marked kind rows) =
      (Query.mk kind rows).cursor := by
  cases rows with
  | nil => rfl
  | cons row rows => rfl

private theorem pull_nil (pred : α → Bool) (kind : String) :
    (matching pred).source.pull ⟨kind, []⟩ = (none, ⟨kind, []⟩) := rfl

private theorem pull_cons (pred : α → Bool) (kind : String) (row : Row α) (rows : List (Row α)) :
    (matching pred).source.pull ⟨kind, row :: rows⟩ = (some row, ⟨kind, rows⟩) := rfl

/-- The filter of a search asks the predicate about the entity of a row. -/
private theorem test_eq (pred : α → Bool) (row : Row α) :
    (matching pred).filter.test ((matching pred).extract row) () = (pred row.entity, ()) := rfl

/-- Pulling from some rows, a search has those ahead that satisfy the predicate. -/
private theorem ahead_advance (pred : α → Bool) (kind : String) (rows : List (Row α))
    (finite : (matching pred).source.Finite ⟨kind, rows⟩) :
    Scan.Ahead (Position.atEnd kind).encode (Scan.advance (matching pred) ⟨kind, rows⟩ () finite)
      (marked kind (rows.filter fun row => pred row.entity)) := by
  -- along the rows; one that does not satisfy the predicate is skipped
  induction rows with
  -- behind the last row the scan has nothing ready
  | nil =>
    rw [Scan.advance_of_none (pull_nil pred kind)]
    exact ⟨rfl, rfl⟩
  | cons row rows ih =>
    cases hp : pred row.entity with
    | false =>
      have htest := (test_eq pred row).trans (by rw [hp])
      rw [Scan.advance_of_false (pull_cons pred kind row rows) htest,
        List.filter_cons_of_neg (by simp [hp])]
      exact ih _
    | true =>
      have htest := (test_eq pred row).trans (by rw [hp])
      rw [Scan.advance_of_true (pull_cons pred kind row rows) htest,
        List.filter_cons_of_pos (by simp [hp])]
      exact ⟨rfl, rfl, ih _⟩

/-- The scan of a search has the matching rows ahead. -/
theorem ahead_start (q : Query α) (pred : α → Bool) :
    Scan.Ahead (Position.atEnd q.kind).encode
      (Scan.start (matching pred) q () q.finite_source)
      (marked q.kind (q.selected pred).rows) :=
  ahead_advance pred q.kind q.rows q.finite_source

/-- The entities of marked rows are those of the rows. -/
private theorem map_marked (kind : String) (rows : List (Row α)) :
    (marked kind rows).map Prod.snd = rows.map Row.entity := by
  rw [marked, List.map_map]
  rfl

/-- Without a request, a search answers all entities that satisfy the predicate. -/
theorem search_none (q : Query α) (pred : α → Bool) :
    q.search none pred = ⟨(q.selected pred).rows.map Row.entity, none⟩ := by
  rw [← map_marked q.kind]
  exact (q.ahead_start pred).drain

/-- The page of a request holds the first matching rows; it lies between the cursors of the
    matching rows and of those that are left. -/
theorem search_some (q : Query α) (request : Page) (pred : α → Bool) :
    q.search (some request) pred =
      ⟨((q.selected pred).rows.take request.size.toNat).map Row.entity,
        some (request.fill (some (q.selected pred).cursor)
          (if ((q.selected pred).drop request.size.toNat).rows = [] then none
            else some ((q.selected pred).drop request.size.toNat).cursor)
          ((q.selected pred).rows.take request.size.toNat).length)⟩ := by
  have htake : (marked q.kind (q.selected pred).rows).take request.size.toNat =
      marked q.kind ((q.selected pred).rows.take request.size.toNat) := List.map_take.symm
  have hdrop : (marked q.kind (q.selected pred).rows).drop request.size.toNat =
      marked q.kind ((q.selected pred).rows.drop request.size.toNat) := List.map_drop.symm
  -- cutting the rows off and marking them with their cursors go together
  have hempty (rows : List (Row α)) : marked q.kind rows = [] ↔ rows = [] := List.map_eq_nil_iff
  have hpage := (q.ahead_start pred).takePage request
  rw [htake, hdrop, map_marked, cursorOf_marked, cursorOf_marked] at hpage
  simp only [hempty] at hpage
  rw [search, Scan.collect, hpage, marked, List.length_map]
  rfl

/-- Where no row is left, the page is empty and starts at the end. -/
theorem search_nil (kind : String) (request : Page) (pred : α → Bool) :
    (Query.mk kind ([] : List (Row α))).search (some request) pred =
      ⟨[], some (request.fill (some (Position.atEnd kind).encode) none 0)⟩ := by
  have hselected : (Query.mk kind ([] : List (Row α))).selected pred = ⟨kind, []⟩ := rfl
  rw [search_some, hselected]
  simp only [drop, List.take_nil, List.drop_nil, List.map_nil, List.length_nil, if_true]
  rfl

/-- The page behind starts at the first matching row that is left. -/
theorem following?_search (q : Query α) (request : Page) (pred : α → Bool) :
    (q.search (some request) pred).page.bind Page.following? =
      ((q.selected pred).rows.drop request.size.toNat).head?.map fun row =>
        .startingAt request.size (Position.before q.kind row.id).encode := by
  have hrows : ((q.selected pred).drop request.size.toNat).rows =
      (q.selected pred).rows.drop request.size.toNat := rfl
  rw [search_some, Option.bind_some, Page.following?, Page.fill]
  cases hleft : (q.selected pred).rows.drop request.size.toNat with
  -- nothing is left, so no next is named
  | nil =>
    rw [if_pos (hrows.trans hleft)]
    rfl
  | cons row rows =>
    have hne : ((q.selected pred).drop request.size.toNat).rows ≠ [] := by
      rw [hrows, hleft]
      nofun
    -- a query that has rows left stands at the first of them
    have hcursor : ((q.selected pred).drop request.size.toNat).cursor =
        (Position.before q.kind row.id).encode := by
      rw [cursor, position, hrows, hleft]
      rfl
    rw [if_neg hne, hcursor]
    rfl

end Query

end EntityStore
