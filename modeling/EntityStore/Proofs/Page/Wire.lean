import EntityStore.Page.Wire
import EntityStore.Proofs.Json.Values

/-! # Pages and results read back

What is written for a page, or for results, is read as the same page and the same results.  The
fields of a page are found in whatever order they come, so a client may hand back a page that
it has kept as a value, whose members come by name.

* `Page.ofText?_of_perm`   a page is read from its fields in any order
* `Page.read?_write`       a page survives the way through its bytes
* `Results.read?_write`    so do results with plain items -/

namespace EntityStore

/-! ## Fields -/

namespace JsonText

variable {α : Type} {read : JsonText → Option α}

/-- A field that is not null is read as what it holds. -/
private theorem optional?_of_ne_null {text : JsonText} (h : text ≠ .null) :
    optional? read (some text) = (read text).map some := by
  cases text with
  | null => exact absurd rfl h
  | _ => rfl

/-- A field that was written for an optional value. -/
theorem optional?_getD {write : α → Json} (hread : ∀ x, read (write x).toText = some x)
    (hwrite : ∀ x, (write x).toText ≠ .null) (o : Option α) :
    optional? read (some ((o.map write).getD .null).toText) = some o := by
  cases o with
  | none => rfl
  | some x =>
    rw [Option.map_some, Option.getD_some, optional?_of_ne_null (hwrite x), hread]
    rfl

end JsonText

/-- A member is looked up under its name, if no name is there twice. -/
theorem Json.lookup_of_mem {fields : List (String × Json)} (h : (fields.map Prod.fst).Nodup)
    {p : String × Json} (hp : p ∈ fields) : fields.lookup p.1 = some p.2 := by
  induction fields with
  | nil => cases hp
  | cons q fields ih =>
    obtain ⟨hq, hfields⟩ := List.nodup_cons.1 h
    rcases List.mem_cons.1 hp with rfl | hp
    · exact List.lookup_cons_self
    · -- a later member has another name than the first
      have hne : p.1 ≠ q.1 := ne_of_mem_of_not_mem (List.mem_map_of_mem hp) hq
      rw [List.lookup_cons, beq_eq_false_iff_ne.2 hne]
      exact ih hfields hp

/-! ## Pages -/

namespace Page

variable {p : Page}

/-- A cursor is read back from its field, and so is none. -/
theorem cursorField?_cursorToJson (c : Option Cursor) :
    cursorField? (some (cursorToJson c).toText) = some c := by
  have hjson : cursorToJson c = (c.map fun cursor => .str cursor.token).getD .null := by
    cases c <;> rfl
  rw [cursorField?, hjson]
  apply JsonText.optional?_getD
  · -- a token is read back as a string, and is not null
    intro cursor
    rw [Json.toText, JsonText.string?, StringLiteral.toString?_ofString]
    rfl
  · intro cursor
    rw [Json.toText]
    nofun

/-- A page is read from its fields in any order. -/
theorem ofText?_of_perm {fields : List (String × Json)} (h : fields.Perm p.fields) :
    ofText? (.object (Json.toMembers fields)) = some p := by
  have hnodup : (fields.map Prod.fst).Nodup := by
    rw [(h.map Prod.fst).nodup_iff]
    simp [Page.fields]
  have hlookup : ∀ q ∈ p.fields, fields.lookup q.1 = some q.2 := fun q hq =>
    Json.lookup_of_mem hnodup (h.mem_iff.2 hq)
  simp only [Page.fields, List.forall_mem_cons] at hlookup
  obtain ⟨hsize, hcurrent, hnext, hreturned, -⟩ := hlookup
  -- each field is found by its name, so the order does not count
  have hread : RecordText.read? ["pageSize", "current", "next", "returnedCount"]
      (.object (Json.toMembers fields)) =
        some ⟨false, [some (Json.ofUInt32 p.size).toText, some (cursorToJson p.current).toText,
          some (cursorToJson p.next).toText, some (Json.ofUInt32 p.returned).toText]⟩ := by
    rw [RecordText.read?, RecordText.assign?_toMembers (by decide) hnodup]
    simp only [List.map_cons, List.map_nil, hsize, hcurrent, hnext, hreturned, Option.map_some]
  simp [ofText?, hread, RecordText.field?, JsonText.uint32?_ofUInt32, cursorField?_cursorToJson]

/-- A page survives the way through its bytes. -/
theorem read?_write (p : Page) : read? p.write = some p := by
  have hparse : JsonText.parse? p.write = some p.toText := Json.parse?_render (.obj p.fields)
  rw [read?, hparse, Option.bind_eq_bind, Option.bind_some]
  exact ofText?_of_perm (.refl _)

/-- So does a page that is kept as a value. -/
theorem ofText?_toJson (p : Page) : ofText? p.toJson.toText = some p := by
  rw [toJson, Json.toText]
  apply ofText?_of_perm
  -- by name, the size comes behind both cursors
  exact @List.perm_middle _ _ [_, _] [_]

end Page

/-! ## Results -/

namespace Results

variable {depth : Nat} {items : List Json} {r : Results Json}

/-- Results are read from plain items and from what was written for a page. -/
theorem ofText?_obj (hdepth : depth + 2 ≤ Json.maxDepth) (hitems : ∀ v ∈ items, v.Plain depth)
    {page : Option Page} {value : Json}
    (hpage : JsonText.optional? Page.ofText? (some value.toText) = some page) :
    ofText? (Json.obj [("items", .arr items), ("pagination", value)]).toText =
      some ⟨items, page⟩ := by
  -- the items lie two levels deep
  have hread : Json.ofItems? (Json.maxDepth - 2) (Json.toItems items) = some items :=
    Json.ofItems?_toItems fun v hv =>
      Json.ofText?_toText (hitems v hv) (Nat.le_sub_of_add_le hdepth)
  have hfields : RecordText.read? ["items", "pagination"]
      (Json.obj [("items", .arr items), ("pagination", value)]).toText =
        some ⟨false, [some (.array (Json.toItems items)), some value.toText]⟩ := by
    rw [Json.toText, RecordText.read?, RecordText.assign?_toMembers (by decide) (by simp)]
    simp [List.lookup_cons, Json.toText]
  simp [ofText?, hfields, RecordText.field?, hread, hpage]

/-- Results with plain items survive the way through their bytes. -/
theorem read?_write (hdepth : depth + 2 ≤ Json.maxDepth) (hitems : ∀ v ∈ r.items, v.Plain depth) :
    read? (r.write id) = some r := by
  obtain ⟨items, page⟩ := r
  have hpage : JsonText.optional? Page.ofText?
      (some ((page.map fun p => Json.obj p.fields).getD .null).toText) = some page :=
    JsonText.optional?_getD (fun p => Page.ofText?_of_perm (.refl _)) nofun page
  -- the record as a value of its own, which is printed and read like any other
  have htext : (Results.mk items page).toText id = (Json.obj [("items", .arr items),
      ("pagination", (page.map fun p => Json.obj p.fields).getD .null)]).toText := by
    rw [toText, List.map_id]
    cases page <;> rfl
  have hparse : JsonText.parse? ((Results.mk items page).write id) =
      some ((Results.mk items page).toText id) := by
    rw [write, htext]
    exact Json.parse?_render _
  rw [read?, hparse, Option.bind_eq_bind, Option.bind_some, htext]
  exact ofText?_obj hdepth hitems hpage

/-- So do results that are kept as a value. -/
theorem ofText?_toJson (hdepth : depth + 2 ≤ Json.maxDepth)
    (hitems : ∀ v ∈ r.items, v.Plain depth) : ofText? (r.toJson id).toText = some r := by
  rw [toJson, List.map_id]
  exact ofText?_obj hdepth hitems (JsonText.optional?_getD Page.ofText?_toJson nofun r.page)

end Results

end EntityStore
