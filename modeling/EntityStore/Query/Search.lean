import EntityStore.Query.Basic
import EntityStore.Scan.Paging

/-! # Searches

A search scans a query for the entities that satisfy a predicate, and fills one page. -/

namespace EntityStore

namespace Query

variable {α : Type}

/-- The entities of a query that satisfy a predicate. -/
def matching (pred : α → Bool) : Selection (Query α) (Row α) Unit α :=
  ⟨source, Row.entity, Filter.ofPred pred⟩

/-- The page of a request, or all, of the entities that satisfy a predicate. -/
def search (q : Query α) (request : Option Page) (pred : α → Bool) : Results α :=
  (Scan.start (matching pred) q () q.finite_source).collect request |>.1

end Query

end EntityStore
