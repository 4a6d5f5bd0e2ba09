import EntityStore.Binary64
import EntityStore.Toml.Basic

/-! # Numbers, dates and words in TOML

The values that are written in one word without quotes.  `Toml.ofWord?` reads such a word as
a whole; `Toml.isWordChar` says which characters a word may hold, so where it ends. -/

namespace EntityStore

namespace Toml

/-- Characters of a value that is written in one word. -/
def isWordChar (c : Char) : Bool :=
  c.isAlphanum || c == '+' || c == '-' || c == '_' || c == '.' || c == ':'

/-- The digits of a word in which single underscores may stand between digits. -/
def digits? (isDigit : Char → Bool) : List Char → Option (List Char)
  | [] => none
  | [c] => if isDigit c then some [c] else none
  | c :: '_' :: rest => if isDigit c then (digits? isDigit rest).map (c :: ·) else none
  | c :: rest => if isDigit c then (digits? isDigit rest).map (c :: ·) else none

/-- The value of a digit of any base up to sixteen. -/
def digitValue (c : Char) : Nat :=
  if c.isDigit then c.toNat - '0'.toNat
  else if 'a' ≤ c ∧ c ≤ 'f' then c.toNat - 'a'.toNat + 10
  else c.toNat - 'A'.toNat + 10

/-- The number of some digits. -/
def ofDigits (base : Nat) (ds : List Char) : Nat := ds.foldl (fun n d => n * base + digitValue d) 0

def isHexDigit (c : Char) : Bool :=
  c.isDigit || ('a' ≤ c && c ≤ 'f') || ('A' ≤ c && c ≤ 'F')

def isOctalDigit (c : Char) : Bool := '0' ≤ c && c ≤ '7'

def isBinaryDigit (c : Char) : Bool := c == '0' || c == '1'

/-- Digits without a zero in front, unless it is alone. -/
def wholeDigits? (word : List Char) : Option (List Char) := do
  let ds ← digits? Char.isDigit word
  if ds.head? = some '0' ∧ ds.length ≠ 1 then none else return ds

/-- Take a sign off a word, and tell whether it was a minus. -/
def splitSign : List Char → Bool × List Char
  | '-' :: word => (true, word)
  | '+' :: word => (false, word)
  | word => (false, word)

/-- An integer, if it has a place in 64 bits. -/
def integer? (n : Int) : Option Toml :=
  if -0x8000000000000000 ≤ n ∧ n < 0x8000000000000000 then some (.integer n) else none

/-- An integer of base sixteen, eight, two or ten. -/
def integerOfWord? : List Char → Option Toml
  | '0' :: 'x' :: word => (digits? isHexDigit word).bind fun ds => integer? (ofDigits 16 ds)
  | '0' :: 'o' :: word => (digits? isOctalDigit word).bind fun ds => integer? (ofDigits 8 ds)
  | '0' :: 'b' :: word => (digits? isBinaryDigit word).bind fun ds => integer? (ofDigits 2 ds)
  | word =>
    let (negative, word) := splitSign word
    (wholeDigits? word).bind fun ds =>
      let n := ofDigits 10 ds
      integer? (if negative then -n else n)

/-- The exponent behind the letter, with any sign. -/
def exponent? (word : List Char) : Option Int := do
  let (negative, word) := splitSign word
  let n := ofDigits 10 (← digits? Char.isDigit word)
  return if negative then -n else n

def isExponentMark (c : Char) : Bool := c == 'e' || c == 'E'

/-- The digits behind the point and the exponent of a float.  One of them has to be there. -/
def fraction? (word : List Char) : Option (List Char × Option Int) :=
  match word.span fun c => !isExponentMark c with
  | ([], _ :: exponent) => (exponent? exponent).map fun e => ([], some e)
  | ('.' :: fraction, []) => (digits? Char.isDigit fraction).map fun ds => (ds, none)
  | ('.' :: fraction, _ :: exponent) => do
    let ds ← digits? Char.isDigit fraction
    return (ds, some (← exponent? exponent))
  | _ => none

/-- Whether a word is a float.  One above the largest finite number is none. -/
def isFloat (word : List Char) : Bool :=
  let (negative, magnitude) := splitSign word
  if magnitude = ['i', 'n', 'f'] ∨ magnitude = ['n', 'a', 'n'] then true
  else
    let (whole, rest) := magnitude.span fun c => c.isDigit || c == '_'
    match wholeDigits? whole, fraction? rest with
    | some ds, some (fraction, exponent) =>
      negative || Binary64.isFinite (ofDigits 10 (ds ++ fraction))
        (exponent.getD 0 - fraction.length)
    | _, _ => false

/-! ## Dates and times -/

/-- The number of exactly so many digits at the start of a word. -/
def number? (count : Nat) (word : List Char) : Option (Nat × List Char) :=
  let ds := word.take count
  if ds.length = count ∧ ds.all Char.isDigit then some (ofDigits 10 ds, word.drop count)
  else none

/-- Take a character off a word. -/
def expect? (c : Char) : List Char → Option (List Char)
  | [] => none
  | d :: word => if d = c then some word else none

def isLeapYear (year : Nat) : Bool := year % 4 == 0 && (year % 100 != 0 || year % 400 == 0)

def daysInMonth (year month : Nat) : Nat :=
  if month = 2 then if isLeapYear year then 29 else 28
  else if month = 4 ∨ month = 6 ∨ month = 9 ∨ month = 11 then 30 else 31

/-- Take a date off a word. -/
def dropDate? (word : List Char) : Option (List Char) := do
  let (year, word) ← number? 4 word
  let (month, word) ← number? 2 (← expect? '-' word)
  let (day, word) ← number? 2 (← expect? '-' word)
  if 1 ≤ month ∧ month ≤ 12 ∧ 1 ≤ day ∧ day ≤ daysInMonth year month then return word else none

/-- Take a time of day off a word. -/
def dropTime? (word : List Char) : Option (List Char) := do
  let (hour, word) ← number? 2 word
  let (minute, word) ← number? 2 (← expect? ':' word)
  let (second, word) ← number? 2 (← expect? ':' word)
  if hour ≤ 23 ∧ minute ≤ 59 ∧ second ≤ 60 then
    match word with
    | '.' :: fraction =>
      match fraction.span Char.isDigit with
      | ([], _) => none
      | (_, word) => return word
    | word => return word
  else none

/-- Whether a word is an offset from universal time. -/
def isOffset : List Char → Bool
  | ['Z'] | ['z'] => true
  | sign :: word =>
    (sign == '+' || sign == '-') &&
      ((do
        let (hour, word) ← number? 2 word
        let (minute, word) ← number? 2 (← expect? ':' word)
        return decide (hour ≤ 23 ∧ minute ≤ 59 ∧ word = [])).getD false)
  | [] => false

/-- Whether a word is a time of day behind a date. -/
def isTimeWithOffset (word : List Char) : Bool :=
  match dropTime? word with
  | some rest => rest.isEmpty || isOffset rest
  | none => false

/-- Whether a word is a date alone. -/
def isDate (word : List Char) : Bool := dropDate? word == some []

/-- Whether a word is a date, a time or both. -/
def isDateTime (word : List Char) : Bool :=
  match dropDate? word with
  | some [] => true
  | some (mark :: time) => (mark == 'T' || mark == 't') && isTimeWithOffset time
  | none => dropTime? word == some []

/-- The value that is written as a word. -/
def ofWord? (word : List Char) : Option Toml :=
  if word = ['t', 'r', 'u', 'e'] then some (.boolean true)
  else if word = ['f', 'a', 'l', 's', 'e'] then some (.boolean false)
  else if isDateTime word then some (.dateTime (String.ofList word))
  else if isFloat word then some (.float (String.ofList word))
  else integerOfWord? word

end Toml

end EntityStore
