import EntityStore.Binary64
import EntityStore.Json.Text

/-! # JSON values

`Json` is what a JSON text means.  Objects list their members by ascending name, each name
once, so equal values are equal trees.  Whole numbers from `-2^63` to `2^64 - 1` are exact;
any other numeral is kept as a decimal `real`.

`Json.ofText?` gives the value of a text and refuses what has none: a string that is not
Unicode, a number beyond the largest finite binary64 number, too deep a nesting.
`Json.render` writes a value as text. -/

namespace EntityStore

/-- A JSON value. -/
inductive Json where
  | null
  | bool (b : Bool)
  | int (n : Int)
  /-- The number `± digits · 10 ^ exponent`. -/
  | real (negative : Bool) (digits : Nat) (exponent : Int)
  | str (s : String)
  | arr (items : List Json)
  | obj (fields : List (String × Json))
deriving Repr, BEq, Inhabited

namespace StringLiteral

/-- Whether a code unit is the first half of a surrogate pair. -/
def isHighSurrogate (code : UInt16) : Bool := 0xD800 ≤ code && code < 0xDC00

/-- Whether a code unit is the second half of a surrogate pair. -/
def isLowSurrogate (code : UInt16) : Bool := 0xDC00 ≤ code && code < 0xE000

/-- The character of a surrogate pair. -/
def pairChar (high low : UInt16) : Char :=
  Char.ofNat (0x10000 + (high.toNat - 0xD800) * 0x400 + (low.toNat - 0xDC00))

/-- The bytes that a literal stands for.  A surrogate that is not in a pair stands for
    nothing. -/
def bytes? : StringLiteral → Option Bytes
  | [] => some []
  | .literal b :: rest => (bytes? rest).map (b :: ·)
  | .escape code :: rest =>
    if isHighSurrogate code then
      match rest with
      | .escape low :: rest =>
        if isLowSurrogate low then
          (bytes? rest).map (String.utf8EncodeChar (pairChar code low) ++ ·)
        else none
      | _ => none
    else if isLowSurrogate code then none
    else (bytes? rest).map (String.utf8EncodeChar (Char.ofNat code.toNat) ++ ·)

/-- The string that a literal stands for, if it is well-formed Unicode. -/
def toString? (s : StringLiteral) : Option String := bytes? s >>= Utf8.decode?

/-- Whether a byte has to be escaped in a literal. -/
def mustEscape (b : UInt8) : Bool :=
  b < 0x20 || b == JsonText.quote || b == JsonText.backslash

/-- The literal of a string: bytes stand for themselves wherever they may. -/
def ofString (s : String) : StringLiteral :=
  (Utf8.encode s).map fun b =>
    if mustEscape b then .escape b.toUInt16 else .literal b

end StringLiteral

namespace Numeral

/-- Whether no point and no exponent was written. -/
def isWhole (n : Numeral) : Bool := n.scale == 0 && n.exponent.isNone

/-- The power of ten that `digits` is multiplied with. -/
def power (n : Numeral) : Int := n.exponent.getD 0 - n.scale

/-- The digits before the point. -/
def wholeDigits (n : Numeral) : Bytes := Decimal.digits (n.digits / Nat.pow 10 n.scale)

/-- The digits behind the point.  A one in front keeps their zeros. -/
def fractionDigits (n : Numeral) : Bytes :=
  let one := Nat.pow 10 n.scale
  (Decimal.digits (one + n.digits % one)).tail

/-- Put digits behind those of a number as long as it stays below `2^64`, and leave the
    others. -/
def absorb (n : Nat) : Bytes → Nat × Bytes
  | [] => (n, [])
  | d :: ds =>
    let next := n * 10 + (d.toNat - '0'.toNat)
    if next < UInt64.size then absorb next ds else (n, d :: ds)

/-- Whether the magnitude is in the range of binary64 numbers.  Its significand is made of
    the digits that 64 bits have room for: a digit that has none counts as a zero before
    the point and as nothing behind it. -/
def isFinite (n : Numeral) : Bool :=
  let (significand, dropped) := absorb 0 n.wholeDigits
  let (significand, ignored) := absorb significand n.fractionDigits
  Binary64.isFiniteProduct significand (n.power + dropped.length + ignored.length)

/-- The number that a numeral denotes.  The negative zero is no whole number. -/
def toJson? (n : Numeral) : Option Json :=
  if n.isWhole ∧ ¬n.negative ∧ n.digits < UInt64.size then some (.int n.digits)
  else if n.isWhole ∧ n.negative ∧ n.digits ≠ 0 ∧ n.digits ≤ 0x8000000000000000 then
    some (.int (-n.digits))
  else if n.isFinite then some (.real n.negative n.digits n.power)
  else none

end Numeral

namespace Json

/-- The deepest nesting of arrays and objects in a value that is read. -/
def maxDepth : Nat := 127

/-- Add a member to members listed by name; a member of the same name is replaced. -/
def insertField (name : String) (value : Json) : List (String × Json) → List (String × Json)
  | [] => [(name, value)]
  | (k, v) :: rest =>
    match compare name k with
    | .lt => (name, value) :: (k, v) :: rest
    | .eq => (name, value) :: rest
    | .gt => (k, v) :: insertField name value rest

/-- The object with these members; of several with one name the last one counts. -/
def ofFields (fields : List (String × Json)) : Json :=
  .obj (fields.foldl (fun acc (name, value) => insertField name value acc) [])

/-- The member of this name, if the value is an object that has one. -/
def field? (name : String) : Json → Option Json
  | .obj fields => fields.lookup name
  | _ => none

/-- The string that a value is. -/
def string? : Json → Option String
  | .str s => some s
  | _ => none

/-- The whole number that a value is. -/
def int? : Json → Option Int
  | .int n => some n
  | _ => none

/-- The items of an array; other values have none. -/
def items : Json → List Json
  | .arr vs => vs
  | _ => []

/-- Whether a value is the truth value `true`. -/
def isTrue : Json → Bool
  | .bool b => b
  | _ => false

/-! ## Reading -/

mutual

/-- The value of a text that is nested at most `depth` levels deep. -/
def ofText? (depth : Nat) : JsonText → Option Json
  | .null => some .null
  | .bool b => some (.bool b)
  | .number n => n.toJson?
  | .string s => (StringLiteral.toString? s).map .str
  | .array items =>
    if depth = 0 then none else (ofItems? (depth - 1) items).map .arr
  | .object members =>
    if depth = 0 then none else (ofMembers? (depth - 1) members).map ofFields

/-- The values of several texts. -/
def ofItems? (depth : Nat) : List JsonText → Option (List Json)
  | [] => some []
  | x :: xs => do
    let v ← ofText? depth x
    let vs ← ofItems? depth xs
    return v :: vs

/-- The members of an object in the order in which they were written. -/
def ofMembers? (depth : Nat) : List (StringLiteral × JsonText) → Option (List (String × Json))
  | [] => some []
  | (name, x) :: ms => do
    let k ← StringLiteral.toString? name
    let v ← ofText? depth x
    let fields ← ofMembers? depth ms
    return (k, v) :: fields

end

/-- The value that bytes spell. -/
def parse? (bytes : Bytes) : Option Json := JsonText.parse? bytes >>= ofText? maxDepth

/-! ## Writing -/

mutual

/-- The text of a value. -/
def toText : Json → JsonText
  | .null => .null
  | .bool b => .bool b
  | .int n => .number ⟨decide (n < 0), n.natAbs, 0, none⟩
  | .real negative digits exponent => .number ⟨negative, digits, 0, some exponent⟩
  | .str s => .string (StringLiteral.ofString s)
  | .arr items => .array (toItems items)
  | .obj fields => .object (toMembers fields)

/-- The texts of several values. -/
def toItems : List Json → List JsonText
  | [] => []
  | v :: vs => v.toText :: toItems vs

/-- The members of an object as text. -/
def toMembers : List (String × Json) → List (StringLiteral × JsonText)
  | [] => []
  | (k, v) :: fields => (StringLiteral.ofString k, v.toText) :: toMembers fields

end

/-- The bytes of a value, written without blanks. -/
def render (v : Json) : Bytes := v.toText.print

/-- The text of a value as a string. -/
def renderString (v : Json) : String := (Utf8.decode? v.render).getD ""

/-! ## Objects from fields -/

/-- A whole number of 64 bits as a value. -/
def ofUInt64 (n : UInt64) : Json := .int n.toNat

/-- A whole number of 32 bits as a value. -/
def ofUInt32 (n : UInt32) : Json := .int n.toNat

/-- An optional string: nothing is `null`. -/
def ofString? : Option String → Json
  | none => .null
  | some s => .str s

end Json

end EntityStore
