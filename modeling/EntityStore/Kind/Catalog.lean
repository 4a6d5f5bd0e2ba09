import EntityStore.Kind.Basic

/-! # Catalogs of kinds

A catalog finds kinds by name, so that a list of names can say which kinds to register.  A
kind is known under the path of its type and under its kind name.  A type path takes its name
from whatever stood there before; a kind name is given away once. -/

namespace EntityStore

/-- A name that no catalog entry answers to. -/
structure UnknownName where
  name : String
deriving DecidableEq, Repr

/-- The wording of a failed look-up. -/
def UnknownName.message (e : UnknownName) : String :=
  s!"no entity kind named '{e.name}' in catalog"

/-- Kinds that can be found by the path of their type or by their kind name. -/
structure Catalog where
  byName : Std.ExtTreeMap String Kind := ∅

namespace Catalog

/-- The catalog that knows no names. -/
def empty : Catalog := {}

/-- Make a kind known under its type path, whatever stood there before, and under its kind
    name, unless that is taken. -/
def add (catalog : Catalog) (kind : Kind) : Catalog :=
  ⟨(catalog.byName.insert kind.typeName kind).insertIfNew kind.name kind⟩

/-- The catalog of several kinds, added in order. -/
def ofList (kinds : List Kind) : Catalog := kinds.foldl add empty

/-- The kind that a name stands for. -/
def resolve (catalog : Catalog) (name : String) : Except UnknownName Kind :=
  match catalog.byName[name]? with
  | some kind => .ok kind
  | none => .error ⟨name⟩

/-- The number of names known. -/
def size (catalog : Catalog) : Nat := catalog.byName.size

/-- Whether no name is known. -/
def isEmpty (catalog : Catalog) : Bool := catalog.byName.isEmpty

end Catalog

end EntityStore
