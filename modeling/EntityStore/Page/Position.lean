import EntityStore.Base64Url
import EntityStore.Page.Cursor
import EntityStore.Error
import EntityStore.Json.RecordText

/-! # Positions

A position is what a cursor of this store says: the kind it was made for, and the id of the
next record to read, or nothing behind the last record.  The token is the base64url form of
a small JSON object, so it can stand in a URL or a form field.

`Position.encode` makes a token, `Position.decode` reads one, and `Position.decodeFor` reads
one that has to belong to a given kind. -/

namespace EntityStore

/-- A place in the records of one kind. -/
structure Position where
  kind : String
  /-- The id of the next record to read; nothing behind the last record. -/
  nextId : Option String
deriving DecidableEq, Repr

namespace Position

/-- The position of the record with an id. -/
def before (kind id : String) : Position := ⟨kind, some id⟩

/-- The position behind the last record. -/
def atEnd (kind : String) : Position := ⟨kind, none⟩

/-- A position in JSON. -/
def toJson (p : Position) : Json := .obj [("at", Json.ofString? p.nextId), ("k", .str p.kind)]

/-- The position that a text spells. -/
def ofText? (text : JsonText) : Option Position := do
  let record ← RecordText.read? ["k", "at"] text
  let kind ← record.field? 0
  return ⟨← kind.string?, ← JsonText.optional? JsonText.string? (record.field? 1)⟩

/-- The token of a position. -/
def encode (p : Position) : Cursor := ⟨Base64Url.encode p.toJson.render⟩

/-- The position that a token was made for.  What the reader of JSON has against a payload is
    left out of the message. -/
def decode (cursor : Cursor) : Except Error Position :=
  match Base64Url.decode cursor.token with
  | .error fault => .error (.invalidCursor s!"not base64url: {fault.message}")
  | .ok payload =>
    match JsonText.parse? payload >>= ofText? with
    | none => .error (.invalidCursor "malformed payload")
    | some p => .ok p

/-- The position that a token was made for, which has to be one of this kind. -/
def decodeFor (cursor : Cursor) (kind : String) : Except Error Position := do
  let p ← decode cursor
  if p.kind = kind then return p
  else throw (.invalidCursor s!"cursor belongs to kind '{p.kind}', not '{kind}'")

end Position

end EntityStore
