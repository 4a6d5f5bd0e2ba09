import EntityStore.Bytes

/-! # JSON texts

`JsonText` is the tree that a JSON text spells, before anybody asks what its strings and
numbers mean: string literals keep their escapes, numerals keep their digits, objects keep
repeated members.  A member that nobody asks for is therefore checked for its grammar
alone, while a value that is used is decoded further in `EntityStore.Json.Basic`.

`JsonText.parse?` reads exactly one text with blanks around it, `JsonText.print` writes
one without blanks.  Nesting is not limited here; the fuel of the reader is the length of
the text, and every level of nesting takes a byte. -/

namespace EntityStore

/-- One unit of a string literal: a byte that stands for itself, or an escape for a
    UTF-16 code unit. -/
inductive StringUnit where
  | literal (b : UInt8)
  | escape (code : UInt16)
deriving DecidableEq, Repr

/-- A string literal between its quotation marks. -/
abbrev StringLiteral := List StringUnit

/-- A numeral.  Its magnitude is `digits · 10 ^ (exponent - scale)`; `scale` counts the
    digits behind the point, and `exponent` is missing if none was written. -/
structure Numeral where
  negative : Bool
  digits : Nat
  scale : Nat := 0
  exponent : Option Int := none
deriving DecidableEq, Repr

/-- The tree that a JSON text spells. -/
inductive JsonText where
  | null
  | bool (b : Bool)
  | number (n : Numeral)
  | string (s : StringLiteral)
  | array (items : List JsonText)
  | object (members : List (StringLiteral × JsonText))

/-- A step of a reader: what was read, and the bytes behind it. -/
abbrev Reader (α : Type) := Bytes → Option (α × Bytes)

namespace JsonText

/-! ## Tokens -/

/-- The mark at both ends of a string literal. -/
def quote : UInt8 := 0x22

/-- The mark that starts an escape. -/
def backslash : UInt8 := 0x5C

/-- Blanks of JSON: space, tabulator, line feed and carriage return. -/
def isBlank (b : UInt8) : Bool := b == 0x20 || b == 0x09 || b == 0x0A || b == 0x0D

/-- Take the blanks off the front. -/
def skipBlanks (bytes : Bytes) : Bytes := bytes.dropWhile isBlank

/-- The escapes of one letter, with the code units they stand for. -/
def shortEscapes : List (UInt8 × UInt16) :=
  [(quote, 0x22), (backslash, 0x5C), ('/'.toUInt8, 0x2F), ('b'.toUInt8, 0x08),
    ('f'.toUInt8, 0x0C), ('n'.toUInt8, 0x0A), ('r'.toUInt8, 0x0D), ('t'.toUInt8, 0x09)]

/-- The value of a hexadecimal digit of either case. -/
def hexValue? (b : UInt8) : Option Nat :=
  if '0'.toUInt8 ≤ b ∧ b ≤ '9'.toUInt8 then some (b.toNat - '0'.toNat)
  else if 'a'.toUInt8 ≤ b ∧ b ≤ 'f'.toUInt8 then some (b.toNat - 'a'.toNat + 10)
  else if 'A'.toUInt8 ≤ b ∧ b ≤ 'F'.toUInt8 then some (b.toNat - 'A'.toNat + 10)
  else none

/-- The code unit that four hexadecimal digits name. -/
def codeUnit? (a b c d : UInt8) : Option UInt16 := do
  let a ← hexValue? a
  let b ← hexValue? b
  let c ← hexValue? c
  let d ← hexValue? d
  return UInt16.ofNat (((a * 16 + b) * 16 + c) * 16 + d)

/-- Read a string literal behind its opening quotation mark, up to and with the closing
    one.  Control characters must be escaped. -/
def readString : Reader StringLiteral
  | [] => none
  | b :: rest =>
    if b = quote then some ([], rest)
    else if b = backslash then
      match rest with
      | [] => none
      | letter :: rest =>
        if letter = 'u'.toUInt8 then
          match rest with
          | a :: b :: c :: d :: rest => do
            let code ← codeUnit? a b c d
            let (units, rest) ← readString rest
            return (.escape code :: units, rest)
          | _ => none
        else do
          let code ← shortEscapes.lookup letter
          let (units, rest) ← readString rest
          return (.escape code :: units, rest)
    else if b < 0x20 then none
    else do
      let (units, rest) ← readString rest
      return (.literal b :: units, rest)

/-- Read at least one digit. -/
def readDigits (bytes : Bytes) : Option (Bytes × Bytes) :=
  match bytes.span Decimal.isDigit with
  | ([], _) => none
  | (ds, rest) => some (ds, rest)

/-- Read the digits before the point: a zero stands alone. -/
def readWhole (bytes : Bytes) : Option (Bytes × Bytes) := do
  let (ds, rest) ← readDigits bytes
  if ds.head? = some '0'.toUInt8 ∧ ds.length ≠ 1 then none else return (ds, rest)

/-- Read the point and the digits behind it, if there is a point. -/
def readFraction : Bytes → Option (Bytes × Bytes)
  | [] => some ([], [])
  | b :: rest => if b = '.'.toUInt8 then readDigits rest else some ([], b :: rest)

/-- Read the exponent, if there is one. -/
def readExponent : Bytes → Option (Option Int × Bytes)
  | [] => some (none, [])
  | b :: rest =>
    if b = 'e'.toUInt8 ∨ b = 'E'.toUInt8 then
      match rest with
      | [] => none
      | sign :: digits =>
        if sign = '-'.toUInt8 then do
          let (ds, rest) ← readDigits digits
          return (some (-(Decimal.ofDigits ds : Int)), rest)
        else do
          let (ds, rest) ← readDigits (if sign = '+'.toUInt8 then digits else rest)
          return (some (Decimal.ofDigits ds : Int), rest)
    else some (none, b :: rest)

/-- Read a numeral behind its sign. -/
def readNumeral (negative : Bool) (bytes : Bytes) : Option (Numeral × Bytes) := do
  let (whole, rest) ← readWhole bytes
  let (fraction, rest) ← readFraction rest
  let (exponent, rest) ← readExponent rest
  return (⟨negative, Decimal.ofDigits (whole ++ fraction), fraction.length, exponent⟩, rest)

/-- Read a keyword. -/
def readKeyword {α : Type} (word : Bytes) (value : α) : Reader α := fun bytes =>
  if word.isPrefixOf bytes then some (value, bytes.drop word.length) else none

/-! ## Values -/

/-- Read what follows an item of a sequence: a comma and another item, or the closing
    bracket. -/
def readMore {α : Type} (item : Reader α) (close : UInt8) : Nat → Reader (List α)
  | 0, _ => none
  | fuel + 1, bytes =>
    match skipBlanks bytes with
    | [] => none
    | b :: rest =>
      if b = close then some ([], rest)
      else if b = ','.toUInt8 then do
        let (x, rest) ← item (skipBlanks rest)
        let (xs, rest) ← readMore item close fuel rest
        return (x :: xs, rest)
      else none

/-- Read the items of a sequence behind its opening bracket, up to and with the closing
    one. -/
def readItems {α : Type} (item : Reader α) (close : UInt8) : Reader (List α) := fun bytes =>
  match skipBlanks bytes with
  | [] => none
  | b :: rest =>
    if b = close then some ([], rest)
    else do
      let (x, rest) ← item (b :: rest)
      let (xs, rest) ← readMore item close rest.length rest
      return (x :: xs, rest)

/-- Read a member of an object: a name, a colon and a value. -/
def readMember (value : Reader JsonText) : Reader (StringLiteral × JsonText)
  | [] => none
  | b :: rest =>
    if b = quote then do
      let (name, rest) ← readString rest
      match skipBlanks rest with
      | [] => none
      | colon :: rest =>
        if colon = ':'.toUInt8 then do
          let (v, rest) ← value (skipBlanks rest)
          return ((name, v), rest)
        else none
    else none

/-- Read one value that starts at the first byte, nested less than `fuel` levels deep. -/
def readValue : Nat → Reader JsonText
  | 0, _ => none
  | _ + 1, [] => none
  | fuel + 1, b :: rest =>
    if b = quote then (readString rest).map fun (s, rest) => (.string s, rest)
    else if b = '['.toUInt8 then
      (readItems (readValue fuel) ']'.toUInt8 rest).map fun (xs, rest) => (.array xs, rest)
    else if b = '{'.toUInt8 then
      (readItems (readMember (readValue fuel)) '}'.toUInt8 rest).map
        fun (ms, rest) => (.object ms, rest)
    else if b = 'n'.toUInt8 then readKeyword (Utf8.encode "ull") .null rest
    else if b = 't'.toUInt8 then readKeyword (Utf8.encode "rue") (.bool true) rest
    else if b = 'f'.toUInt8 then readKeyword (Utf8.encode "alse") (.bool false) rest
    else if b = '-'.toUInt8 then
      (readNumeral true rest).map fun (n, rest) => (.number n, rest)
    else (readNumeral false (b :: rest)).map fun (n, rest) => (.number n, rest)

/-- Read a whole text: one value with blanks around it and nothing else. -/
def parse? (bytes : Bytes) : Option JsonText := do
  let (value, rest) ← readValue bytes.length (skipBlanks bytes)
  if skipBlanks rest = [] then some value else none

/-! ## Writing -/

/-- The digit of a value below sixteen, in lower case. -/
def hexDigit (n : Nat) : UInt8 :=
  if n < 10 then UInt8.ofNat ('0'.toNat + n) else UInt8.ofNat ('a'.toNat + (n - 10))

/-- The escape of a code unit: the short form if there is one, else four digits. -/
def printEscape (code : UInt16) : Bytes :=
  match shortEscapes.find? (fun e => e.2 = code) with
  | some (letter, _) => [backslash, letter]
  | none =>
    let n := code.toNat
    [backslash, 'u'.toUInt8, hexDigit (n / 4096), hexDigit (n / 256 % 16),
      hexDigit (n / 16 % 16), hexDigit (n % 16)]

/-- Write one unit of a literal. -/
def printUnit : StringUnit → Bytes
  | .literal b => [b]
  | .escape code => printEscape code

/-- Write a literal between its quotation marks. -/
def printString (s : StringLiteral) : Bytes := quote :: s.flatMap printUnit ++ [quote]

/-- Write a numeral; one with a point or an exponent is written with an exponent alone. -/
def printNumeral (n : Numeral) : Bytes :=
  (if n.negative then ['-'.toUInt8] else []) ++ Decimal.digits n.digits ++
    if n.scale = 0 ∧ n.exponent = none then []
    else
      let e := n.exponent.getD 0 - n.scale
      'e'.toUInt8 :: (if e < 0 then ['-'.toUInt8] else []) ++ Decimal.digits e.natAbs

mutual

/-- Write a value without blanks. -/
def print : JsonText → Bytes
  | .null => Utf8.encode "null"
  | .bool true => Utf8.encode "true"
  | .bool false => Utf8.encode "false"
  | .number n => printNumeral n
  | .string s => printString s
  | .array items => '['.toUInt8 :: printItems items ++ [']'.toUInt8]
  | .object members => '{'.toUInt8 :: printMembers members ++ ['}'.toUInt8]

/-- Write values with commas between them. -/
def printItems : List JsonText → Bytes
  | [] => []
  | [x] => x.print
  | x :: xs => x.print ++ ','.toUInt8 :: printItems xs

/-- Write members with commas between them. -/
def printMembers : List (StringLiteral × JsonText) → Bytes
  | [] => []
  | [(name, x)] => printString name ++ ':'.toUInt8 :: x.print
  | (name, x) :: ms =>
    printString name ++ ':'.toUInt8 :: (x.print ++ ','.toUInt8 :: printMembers ms)

end

end JsonText

end EntityStore
