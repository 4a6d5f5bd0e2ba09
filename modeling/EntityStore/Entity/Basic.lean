import EntityStore.Error

/-! # Entity types

An entity type says how the values of a Lean type are kept in a store: under which kind,
under which id, and as which JSON body.  Writing a body and reading one may both fail. -/

namespace EntityStore

/-- How the values of a type are stored. -/
structure EntityType (α : Type) where
  /-- The kind that the entities are stored under. -/
  kind : Kind
  /-- The identifier of an entity within its kind. -/
  id : α → String
  /-- The stored body of an entity. -/
  encode : α → Except BodyError Json
  /-- The entity of a stored body. -/
  decode : Json → Except BodyError α

/-- An entity as it comes back from a store. -/
structure Row (α : Type) where
  id : String
  /-- The version of the record; 0 for a write that a transaction holds back. -/
  version : UInt64
  entity : α
deriving DecidableEq, Repr

namespace EntityType

variable {α : Type}

/-- The name of the kind. -/
def kindName (type : EntityType α) : String := type.kind.name

/-- The entity of a record that was found in a store. -/
def decodeRow (type : EntityType α) (id : String) (version : UInt64) (body : Json) :
    Except Error (Row α) :=
  match type.decode body with
  | .ok entity => .ok ⟨id, version, entity⟩
  | .error cause => .error (.serialization cause)

end EntityType

end EntityStore
