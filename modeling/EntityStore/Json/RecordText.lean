import EntityStore.Json.Basic

/-! # Records in JSON

A record with named fields is written as an object.  It is read from an object, in which
members of other names are skipped after a check of their grammar, or from an array that
lists the fields in their order.

`RecordText.read?` finds the texts of the fields; the field readers below say what a field of
each type may be. -/

namespace EntityStore

/-- The fields that were found for a record, in their order. -/
structure RecordText where
  /-- Whether the record was written as an array. -/
  positional : Bool
  /-- The text of each field that was given. -/
  fields : List (Option JsonText)

namespace RecordText

/-- Put the members of an object to the names they belong to.  Every name must be a string,
    and a name that is asked for may come once. -/
def assign? (names : List String) :
    List (StringLiteral × JsonText) → Option (List (Option JsonText))
  | [] => some (names.map fun _ => none)
  | (literal, value) :: members => do
    let name ← StringLiteral.toString? literal
    let found ← assign? names members
    match names.idxOf? name with
    | none => return found
    | some i =>
      match found[i]? with
      | some none => return found.set i (some value)
      | _ => none

/-- The texts of the fields with these names. -/
def read? (names : List String) : JsonText → Option RecordText
  | .object members => (assign? names members).map (⟨false, ·⟩)
  | .array items =>
    if items.length ≤ names.length then
      some ⟨true, items.map some ++ List.replicate (names.length - items.length) none⟩
    else none
  | _ => none

/-- The text of the field at a place. -/
def field? (r : RecordText) (i : Nat) : Option JsonText := (r.fields[i]?).join

end RecordText

namespace JsonText

/-- The string that a text spells. -/
def string? : JsonText → Option String
  | .string s => StringLiteral.toString? s
  | _ => none

/-- The whole number of 32 bits that a text spells. -/
def uint32? : JsonText → Option UInt32
  | .number n =>
    if n.isWhole ∧ ¬n.negative ∧ n.digits < UInt32.size then some (UInt32.ofNat n.digits)
    else none
  | _ => none

/-- A field that may be missing or `null`. -/
def optional? {α : Type} (read : JsonText → Option α) : Option JsonText → Option (Option α)
  | none => some none
  | some .null => some none
  | some text => (read text).map some

end JsonText

end EntityStore
