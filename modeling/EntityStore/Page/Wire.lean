import EntityStore.Json.RecordText
import EntityStore.Page.Basic

/-! # Pages in JSON

How pages and results travel between a client and a server.  Both are written as objects, with
their fields in the order `pageSize`, `current`, `next`, `returnedCount` or `items`,
`pagination`.  Read are objects with these fields in any order, and also arrays of them.  Of a
page only the size has to be there.

* `Page.write`, `Results.write`  the bytes of a page, and of results
* `Page.read?`, `Results.read?`  read them back
* `Page.toJson`, `Results.toJson`  the same as values, whose members come by name -/

namespace EntityStore

namespace Page

/-- An optional cursor in JSON. -/
def cursorToJson (c : Option Cursor) : Json := Json.ofString? (c.map Cursor.token)

/-- The fields of a page. -/
def fields (p : Page) : List (String × Json) :=
  [("pageSize", Json.ofUInt32 p.size), ("current", cursorToJson p.current),
    ("next", cursorToJson p.next), ("returnedCount", Json.ofUInt32 p.returned)]

/-- The text of a page. -/
def toText (p : Page) : JsonText := .object (Json.toMembers p.fields)

/-- The bytes of a page. -/
def write (p : Page) : Bytes := p.toText.print

/-- A page in JSON. -/
def toJson (p : Page) : Json :=
  .obj [("current", cursorToJson p.current), ("next", cursorToJson p.next),
    ("pageSize", Json.ofUInt32 p.size), ("returnedCount", Json.ofUInt32 p.returned)]

/-- The optional cursor that a field spells. -/
def cursorField? (field : Option JsonText) : Option (Option Cursor) :=
  JsonText.optional? (fun text => text.string?.map Cursor.mk) field

/-- The page that a text spells. -/
def ofText? (text : JsonText) : Option Page := do
  let record ← RecordText.read? ["pageSize", "current", "next", "returnedCount"] text
  let size ← (← record.field? 0).uint32?
  let current ← cursorField? (record.field? 1)
  let next ← cursorField? (record.field? 2)
  let returned ← match record.field? 3 with
    | none => some 0
    | some field => field.uint32?
  return { size, current, next, returned }

/-- The page that bytes spell. -/
def read? (bytes : Bytes) : Option Page := JsonText.parse? bytes >>= ofText?

end Page

namespace Results

variable {α : Type}

/-- The text of results, where `item` writes one item. -/
def toText (item : α → Json) (r : Results α) : JsonText :=
  .object [(.ofString "items", .array (Json.toItems (r.items.map item))),
    (.ofString "pagination", (r.page.map Page.toText).getD .null)]

/-- The bytes of results. -/
def write (item : α → Json) (r : Results α) : Bytes := (r.toText item).print

/-- Results in JSON, where `item` writes one item. -/
def toJson (item : α → Json) (r : Results α) : Json :=
  .obj [("items", .arr (r.items.map item)), ("pagination", (r.page.map Page.toJson).getD .null)]

/-- The results that a text spells, with any JSON for items.  The page may be missing where
    the fields are named. -/
def ofText? (text : JsonText) : Option (Results Json) := do
  let record ← RecordText.read? ["items", "pagination"] text
  let items ← match ← record.field? 0 with
    | .array items => Json.ofItems? (Json.maxDepth - 2) items
    | _ => none
  let field := record.field? 1
  if record.positional ∧ field.isNone then none
  let page ← JsonText.optional? Page.ofText? field
  return ⟨items, page⟩

/-- The results that bytes spell. -/
def read? (bytes : Bytes) : Option (Results Json) := JsonText.parse? bytes >>= ofText?

end Results

end EntityStore
