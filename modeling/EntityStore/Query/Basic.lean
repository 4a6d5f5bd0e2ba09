import EntityStore.Entity.Basic
import EntityStore.Page.Position
import EntityStore.Scan.Source

/-! # Queries

A query holds the rows of one kind that were there when it was opened, by ascending id.  Its
cursor names the row it would give next, so a query opened at that cursor gives the same row
first; behind the last row it is the position at the end. -/

namespace EntityStore

/-- The rows of a kind that are still to come. -/
structure Query (α : Type) where
  /-- The name of the kind that is read. -/
  kind : String
  rows : List (Row α)
deriving DecidableEq, Repr

namespace Query

variable {α : Type}

/-- The number of rows still to come. -/
def remaining (q : Query α) : Nat := q.rows.length

/-- The place of the next row. -/
def position (q : Query α) : Position :=
  match q.rows with
  | row :: _ => Position.before q.kind row.id
  | [] => Position.atEnd q.kind

/-- The cursor of the next row. -/
def cursor (q : Query α) : Cursor := q.position.encode

/-- The next row, if there is one, and the query behind it. -/
def next (q : Query α) : Option (Row α) × Query α :=
  match q.rows with
  | row :: rows => (some row, { q with rows })
  | [] => (none, q)

/-- A query as a source of rows. -/
def source : Source (Query α) (Row α) := ⟨cursor, next⟩

/-- The rows of a query are used up one by one. -/
theorem finite_source (q : Query α) : source.Finite q := by
  refine Source.Finite.of_measure (fun q => q.rows.length) (fun q row t h => ?_) q
  simp only [source, next] at h
  split at h
  · next hr =>
    obtain ⟨-, rfl⟩ := Prod.mk.inj h
    simp [hr]
  · simp at h

end Query

end EntityStore
