import EntityStore.Entity.Basic

/-! # Entity types from fields

A schema lists the fields of an entity with their types; the field `id` is the identifier.
Its entities are JSON objects with these fields, and so are their stored bodies.

A body is read member by member in the order of their names.  The first member with a wrong
value is reported; only when all are right, the first field that is missing is.  Members of
other names are not looked at. -/

namespace EntityStore

/-- The type of a field. -/
inductive FieldType where
  | text
  | flag
  /-- A whole number between two bounds, under the name of its type. -/
  | whole (least greatest : Int) (typeName : String)
  /-- Any JSON. -/
  | any
  /-- Any JSON, or nothing; `null` is nothing. -/
  | optional
deriving DecidableEq, Repr

namespace FieldType

/-- Whole numbers of 64 bits with a sign. -/
def int64 : FieldType := .whole (-0x8000000000000000) 0x7FFFFFFFFFFFFFFF "i64"

/-- Whole numbers of 8 bits without a sign. -/
def uint8 : FieldType := .whole 0 0xFF "u8"

/-- Whole numbers of 128 bits without a sign. -/
def uint128 : FieldType := .whole 0 0xFFFFFFFFFFFFFFFFFFFFFFFFFFFFFFFF "u128"

/-- Check the value of a field. -/
def check (type : FieldType) (value : Json) : Except BodyError Unit :=
  match type, value with
  | .text, .str _ => .ok ()
  | .text, v => .error (.invalidType v "a string")
  | .flag, .bool _ => .ok ()
  | .flag, v => .error (.invalidType v "a boolean")
  | .whole least greatest typeName, .int n =>
    if least ≤ n ∧ n ≤ greatest then .ok () else .error (.invalidValue (.int n) typeName)
  | .whole _ _ typeName, v => .error (.invalidType v typeName)
  | .any, _ => .ok ()
  | .optional, _ => .ok ()

/-- Whether a value stands for a field that is left out. -/
def leavesOut (type : FieldType) (value : Json) : Bool := type == .optional && value == .null

end FieldType

/-- The fields of an entity type in their order. -/
structure Schema where
  kind : Kind
  fields : List (String × FieldType)

namespace Schema

/-- Whether a value has a place in a stored body: whole numbers need one of 64 bits. -/
def isStorable : Json → Bool
  | .int n => -0x8000000000000000 ≤ n && n < 0x10000000000000000
  | _ => true

/-- The members of an entity that the schema knows, without those that are left out. -/
def select (entity : Json) : List (String × FieldType) → List (String × Json)
  | [] => []
  | (name, type) :: fields =>
    match entity.field? name with
    | none => select entity fields
    | some v =>
      if type.leavesOut v then select entity fields else (name, v) :: select entity fields

/-- The body of an entity. -/
def encode (schema : Schema) (entity : Json) : Except BodyError Json :=
  let members := select entity schema.fields
  if members.all fun (_, v) => isStorable v then .ok (Json.ofFields members)
  else .error .numberOutOfRange

/-- Check the members of a body that the schema knows, in order. -/
def checkMembers (schema : Schema) : List (String × Json) → Except BodyError Unit
  | [] => .ok ()
  | (name, v) :: members =>
    match schema.fields.lookup name with
    | none => checkMembers schema members
    | some type => do
      type.check v
      checkMembers schema members

/-- The first field that a body has to have and does not. -/
def missing? (body : Json) : List (String × FieldType) → Option String
  | [] => none
  | (name, type) :: fields =>
    if type ≠ .optional ∧ (body.field? name).isNone then some name else missing? body fields

/-- The entity of a body. -/
def decode (schema : Schema) (body : Json) : Except BodyError Json :=
  match body with
  | .obj members => do
    schema.checkMembers members
    match missing? body schema.fields with
    | some name => throw (.missingField name)
    | none => return Json.ofFields (select body schema.fields)
  | v => .error (.invalidType v s!"struct {schema.kind.name}")

/-- The identifier of an entity. -/
def id (entity : Json) : String :=
  match entity.field? "id" with
  | some (.str s) => s
  | _ => ""

/-- The entity type of a schema. -/
def entityType (schema : Schema) : EntityType Json :=
  ⟨schema.kind, id, schema.encode, schema.decode⟩

end Schema

end EntityStore
