/-! # Strings in TOML

A string can be written in four forms: between quotation marks or apostrophes, on one line or,
with three marks, on several.  Apostrophes allow no escapes.  `Toml.quote` takes the first
form of a fixed order in which the text can stand without escapes, and writes it with escapes
only if there is none. -/

namespace EntityStore

namespace Toml

/-- The length of the longest run of a character. -/
def longestRun (c : Char) (cs : List Char) : Nat :=
  (cs.foldl (fun (longest, run) d =>
    let run := if d = c then run + 1 else 0
    (max longest run, run)) (0, 0)).1

/-- Control characters that no form but the one with escapes can hold. -/
def isControl (c : Char) : Bool :=
  (c < ' ' && c != '\t' && c != '\n') || c == '\x7f'

/-- The four hexadecimal digits of a control character, in upper case. -/
def controlDigits (c : Char) : List Char :=
  let ds := (Nat.toDigits 16 c.toNat).map Char.toUpper
  List.replicate (4 - ds.length) '0' ++ ds

/-- The escape of a character, if it has to be escaped. -/
def escape? (multiline : Bool) (c : Char) : Option (List Char) :=
  if c = '\x08' then some ['\\', 'b']
  else if c = '\t' then some ['\\', 't']
  else if c = '\n' then if multiline then none else some ['\\', 'n']
  else if c = '\x0c' then some ['\\', 'f']
  else if c = '\r' then some ['\\', 'r']
  else if c = '\\' then some ['\\', '\\']
  else if isControl c then some ('\\' :: 'u' :: controlDigits c)
  else none

/-- The text between quotation marks with its escapes.  A quotation mark is escaped behind
    `allowed` others in a row, of which `run` have been written. -/
def escapeAll (multiline : Bool) (allowed : Nat) : Nat → List Char → List Char
  | _, [] => []
  | run, c :: cs =>
    if c = '\x22' then
      if run < allowed then c :: escapeAll multiline allowed (run + 1) cs
      else '\\' :: c :: escapeAll multiline allowed 0 cs
    else (escape? multiline c).getD [c] ++ escapeAll multiline allowed 0 cs

/-- A text between marks.  Between marks for several lines, a text that has lines starts on
    a line of its own. -/
def enclose (marks : List Char) (cs content : List Char) : String :=
  String.ofList (marks ++ (if marks.length = 3 ∧ '\n' ∈ cs then ['\n'] else []) ++ content ++ marks)

/-- So many quotation marks. -/
def quoteMarks (n : Nat) : List Char := List.replicate n '\x22'

/-- So many apostrophes. -/
def apostrophes (n : Nat) : List Char := List.replicate n '\x27'

/-- A string as it is written in a document. -/
def quote (s : String) : String :=
  let cs := s.toList
  let controls := cs.any isControl
  let backslashes := cs.contains '\\'
  let newlines := cs.contains '\n'
  let quotes := longestRun '\x22' cs
  let singles := longestRun '\x27' cs
  if ¬controls ∧ ¬backslashes ∧ quotes = 0 ∧ ¬newlines then
    enclose (quoteMarks 1) cs (escapeAll false 0 0 cs)
  else if ¬controls ∧ singles = 0 ∧ ¬newlines then enclose (apostrophes 1) cs cs
  else if ¬controls ∧ ¬backslashes ∧ quotes ≤ 2 then
    enclose (quoteMarks 3) cs (escapeAll true 2 0 cs)
  else if ¬controls ∧ singles ≤ 2 then enclose (apostrophes 3) cs cs
  else if newlines then enclose (quoteMarks 3) cs (escapeAll true 2 0 cs)
  else enclose (quoteMarks 1) cs (escapeAll false 0 0 cs)

end Toml

end EntityStore
