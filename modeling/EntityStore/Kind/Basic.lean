import Std.Data.ExtTreeMap

/-! # Kinds

A kind is the identity of an entity type: the name its records go by in a store, and the
path of the type itself.  Several types may share one kind name.  Kinds are ordered by name
and then by type path. -/

namespace EntityStore

/-- Identity of an entity type. -/
structure Kind where
  /-- The name that records of this kind go by in a store. -/
  name : String
  /-- The full path of the type. -/
  typeName : String
deriving DecidableEq, Repr, Inhabited

namespace Kind

instance : Ord Kind := ⟨compareLex (compareOn Kind.name) (compareOn Kind.typeName)⟩

instance : Std.TransOrd Kind :=
  inferInstanceAs (Std.TransCmp (compareLex (compareOn name) (compareOn typeName)))

instance : Std.LawfulEqOrd Kind where
  eq_of_compare {a b} h := by
    obtain ⟨hn, ht⟩ := Ordering.then_eq_eq.1 h
    cases a; cases b
    simp only [compareOn] at hn ht
    rw [Std.LawfulEqOrd.eq_of_compare hn, Std.LawfulEqOrd.eq_of_compare ht]

/-- A kind as it is shown to a reader. -/
def display (kind : Kind) : String := s!"{kind.name} ({kind.typeName})"

end Kind

end EntityStore
