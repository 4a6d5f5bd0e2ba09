import EntityStore.Bytes

/-! # Base64url without padding

Three bytes are written as four symbols of six bits; one or two bytes at the end as two or
three symbols, and the bits left over are zero.  The symbols are `A-Z`, `a-z`, `0-9`, `-`
and `_`, so a token survives in a URL.

`encode` writes the symbols, `decode` reads them and refuses every other text, with the
fault and its place. -/

namespace EntityStore

namespace Base64Url

/-- Why a text is no base64url. -/
inductive DecodeError where
  /-- A byte that is no symbol, and its offset. -/
  | invalidByte (byte : UInt8) (offset : Nat)
  /-- One symbol is left over behind whole groups. -/
  | danglingSymbol
  /-- The last symbol has bits that belong to no byte. -/
  | invalidLastSymbol (byte : UInt8) (offset : Nat)
  /-- The text is filled up with padding marks. -/
  | padded
deriving DecidableEq, Repr

/-- The wording of a fault. -/
def DecodeError.message : DecodeError → String
  | .invalidByte byte offset => s!"Invalid byte {byte.toNat}, offset {offset}."
  | .danglingSymbol => "Encoded text cannot have a 6-bit remainder."
  | .invalidLastSymbol byte offset => s!"Invalid last symbol {byte.toNat}, offset {offset}."
  | .padded => "Invalid padding"

/-- The symbol of a value below 64. -/
def symbol (n : Nat) : UInt8 :=
  if n < 26 then UInt8.ofNat ('A'.toNat + n)
  else if n < 52 then UInt8.ofNat ('a'.toNat + (n - 26))
  else if n < 62 then UInt8.ofNat ('0'.toNat + (n - 52))
  else if n = 62 then '-'.toUInt8 else '_'.toUInt8

/-- The value of a symbol. -/
def value? (b : UInt8) : Option Nat :=
  if 'A'.toUInt8 ≤ b ∧ b ≤ 'Z'.toUInt8 then some (b.toNat - 'A'.toNat)
  else if 'a'.toUInt8 ≤ b ∧ b ≤ 'z'.toUInt8 then some (b.toNat - 'a'.toNat + 26)
  else if '0'.toUInt8 ≤ b ∧ b ≤ '9'.toUInt8 then some (b.toNat - '0'.toNat + 52)
  else if b = '-'.toUInt8 then some 62
  else if b = '_'.toUInt8 then some 63
  else none

/-- The mark that other variants fill up the last group with. -/
def paddingMark : UInt8 := '='.toUInt8

/-- Split bytes into values of six bits. -/
def split : Bytes → List Nat
  | a :: b :: c :: rest =>
    a.toNat / 4 :: (a.toNat % 4 * 16 + b.toNat / 16) :: (b.toNat % 16 * 4 + c.toNat / 64) ::
      c.toNat % 64 :: split rest
  | [a, b] => [a.toNat / 4, a.toNat % 4 * 16 + b.toNat / 16, b.toNat % 16 * 4]
  | [a] => [a.toNat / 4, a.toNat % 4 * 16]
  | [] => []

/-- Join values of six bits to bytes.  Bits left over must be zero. -/
def join? : List Nat → Option Bytes
  | a :: b :: c :: d :: rest => do
    let bytes ← join? rest
    return UInt8.ofNat (a * 4 + b / 16) :: UInt8.ofNat (b % 16 * 16 + c / 4) ::
      UInt8.ofNat (c % 4 * 64 + d) :: bytes
  | [a, b, c] =>
    if c % 4 = 0 then some [UInt8.ofNat (a * 4 + b / 16), UInt8.ofNat (b % 16 * 16 + c / 4)]
    else none
  | [a, b] => if b % 16 = 0 then some [UInt8.ofNat (a * 4 + b / 16)] else none
  | [_] => none
  | [] => some []

/-- The values of a run of symbols, or the first byte that is none with its offset, where
    `offset` is the offset of the first byte. -/
def values (offset : Nat) : Bytes → Except (UInt8 × Nat) (List Nat)
  | [] => .ok []
  | b :: rest =>
    match value? b with
    | none => .error (b, offset)
    | some n => (values (offset + 1) rest).map (n :: ·)

/-- The symbols of some bytes. -/
def encodeBytes (bytes : Bytes) : Bytes := (split bytes).map symbol

/-- The token of some bytes. -/
def encode (bytes : Bytes) : String :=
  String.ofList ((encodeBytes bytes).map fun b => Char.ofNat b.toNat)

/-- The fault of a text whose byte at `offset` is no symbol.  Padding marks that fill the
    last group are called by their name. -/
def foreignByte (bytes : Bytes) (b : UInt8) (offset : Nat) : DecodeError :=
  if b = paddingMark ∧ offset / 4 = (bytes.length - 1) / 4 ∧ 2 ≤ offset % 4 ∧
      (bytes.drop offset).all (· == paddingMark) then
    .padded
  else .invalidByte b offset

/-- The fault of a text with one symbol left over. -/
def dangling (bytes : Bytes) : DecodeError :=
  match bytes.getLast? with
  | none => .danglingSymbol
  | some b =>
    if (value? b).isNone ∧ b ≠ paddingMark then .invalidByte b (bytes.length - 1)
    else .danglingSymbol

/-- The bytes that some symbols encode. -/
def decodeBytes (bytes : Bytes) : Except DecodeError Bytes :=
  if bytes.length % 4 = 1 then .error (dangling bytes)
  else
    match values 0 bytes with
    | .error (b, offset) => .error (foreignByte bytes b offset)
    | .ok ns =>
      match join? ns with
      | some decoded => .ok decoded
      | none => .error (.invalidLastSymbol (bytes.getLast?.getD 0) (bytes.length - 1))

/-- The bytes that a token encodes. -/
def decode (token : String) : Except DecodeError Bytes := decodeBytes (Utf8.encode token)

end Base64Url

end EntityStore
