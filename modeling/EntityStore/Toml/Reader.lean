import EntityStore.Toml.Scalar

/-! # Reading TOML

`Toml.parse?` reads the text of a document: lines of pairs, headers and comments, with LF or
CR LF between them.  Readers take characters off the front of a text and answer with what is
left; loops are given the length of the text as fuel, as every round takes a character. -/

namespace EntityStore

namespace Toml

/-- A step of a reader: what was read, and the characters behind it. -/
abbrev TextReader (α : Type) := List Char → Option (α × List Char)

/-! ## Blanks, comments and ends of lines -/

def isSpace (c : Char) : Bool := c == ' ' || c == '\t'

def skipSpaces (cs : List Char) : List Char := cs.dropWhile isSpace

/-- Characters that may stand for themselves in comments and strings. -/
def isText (c : Char) : Bool := c == '\t' || (' ' ≤ c && c != '\x7f')

/-- Take the end of a line off a text. -/
def dropNewline? : List Char → Option (List Char)
  | '\n' :: rest => some rest
  | '\r' :: '\n' :: rest => some rest
  | _ => none

/-- Skip a comment, if there is one. -/
def skipComment : List Char → List Char
  | '#' :: rest => rest.dropWhile isText
  | cs => cs

/-- Skip what may stand behind a line: spaces, a comment, and the end of the line or of the
    text. -/
def dropLineEnd? (cs : List Char) : Option (List Char) :=
  match skipComment (skipSpaces cs) with
  | [] => some []
  | rest => dropNewline? rest

/-- Skip spaces, comments and ends of lines.  What cannot be skipped is left. -/
def skipBlankLines : Nat → List Char → List Char
  | 0, cs => cs
  | fuel + 1, cs =>
    let rest := skipComment (skipSpaces cs)
    match dropNewline? rest with
    | some rest => skipBlankLines fuel rest
    | none => rest

/-! ## Strings -/

/-- The character with a code that is written in so many hexadecimal digits. -/
def codePoint? (count : Nat) (cs : List Char) : Option (Char × List Char) :=
  let ds := cs.take count
  let n := ofDigits 16 ds
  if ds.length = count ∧ ds.all isHexDigit ∧ n.isValidChar then
    some (Char.ofNat n, cs.drop count)
  else none

/-- Read an escape behind its backslash. -/
def readEscape : TextReader Char
  | 'b' :: rest => some ('\x08', rest)
  | 't' :: rest => some ('\t', rest)
  | 'n' :: rest => some ('\n', rest)
  | 'f' :: rest => some ('\x0c', rest)
  | 'r' :: rest => some ('\r', rest)
  | '\x22' :: rest => some ('\x22', rest)
  | '\\' :: rest => some ('\\', rest)
  | 'u' :: rest => codePoint? 4 rest
  | 'U' :: rest => codePoint? 8 rest
  | _ => none

/-- Read a string with escapes on one line, behind its opening quotation mark. -/
def readBasic : Nat → TextReader (List Char)
  | 0, _ => none
  | _ + 1, [] => none
  | fuel + 1, c :: rest =>
    if c = '\x22' then some ([], rest)
    else if c = '\\' then do
      let (c, rest) ← readEscape rest
      let (cs, rest) ← readBasic fuel rest
      return (c :: cs, rest)
    else if isText c then do
      let (cs, rest) ← readBasic fuel rest
      return (c :: cs, rest)
    else none

/-- Read a string without escapes on one line, behind its opening quotation mark. -/
def readLiteral : TextReader (List Char)
  | [] => none
  | c :: rest =>
    if c = '\'' then some ([], rest)
    else if isText c then do
      let (cs, rest) ← readLiteral rest
      return (c :: cs, rest)
    else none

/-- The quotation marks that end a string on several lines: up to two of those before the
    last three belong to the string. -/
def closingMarks? (mark : Char) (cs : List Char) : Option (List Char × List Char) :=
  let run := cs.takeWhile (· == mark)
  if run.length < 3 then none
  else
    let content := min (run.length - 3) 2
    some (List.replicate content mark, cs.drop (content + 3))

/-- Read a string on several lines, behind its opening quotation marks.  With escapes, a
    backslash at the end of a line takes away all blanks up to the next text. -/
def readLines (mark : Char) (escapes : Bool) : Nat → TextReader (List Char)
  | 0, _ => none
  | fuel + 1, cs =>
    match closingMarks? mark cs, dropNewline? cs, cs with
    | some (content, rest), _, _ => some (content, rest)
    | none, some rest, _ => do
      let (cs, rest) ← readLines mark escapes fuel rest
      return ('\n' :: cs, rest)
    | none, none, [] => none
    | none, none, c :: rest =>
      if escapes ∧ c = '\\' then
        match dropNewline? (skipSpaces rest) with
        | some rest => readLines mark escapes fuel (skipBreaks fuel rest)
        | none => do
          let (c, rest) ← readEscape rest
          let (cs, rest) ← readLines mark escapes fuel rest
          return (c :: cs, rest)
      else if isText c then do
        let (cs, rest) ← readLines mark escapes fuel rest
        return (c :: cs, rest)
      else none
where
  /-- Skip spaces and ends of lines. -/
  skipBreaks : Nat → List Char → List Char
    | 0, cs => cs
    | fuel + 1, cs =>
      match dropNewline? (skipSpaces cs) with
      | some rest => skipBreaks fuel rest
      | none => skipSpaces cs

/-- Read a string on several lines; an end of line right behind the opening marks does not
    count. -/
def readMultiline (mark : Char) (escapes : Bool) : TextReader (List Char) := fun cs =>
  let cs := (dropNewline? cs).getD cs
  readLines mark escapes (cs.length + 1) cs

/-- Read a string of any form. -/
def readString : TextReader String
  | '\x22' :: '\x22' :: '\x22' :: rest =>
    (readMultiline '\x22' true rest).map fun (cs, rest) => (String.ofList cs, rest)
  | '\'' :: '\'' :: '\'' :: rest =>
    (readMultiline '\'' false rest).map fun (cs, rest) => (String.ofList cs, rest)
  | '\x22' :: rest =>
    (readBasic rest.length rest).map fun (cs, rest) => (String.ofList cs, rest)
  | '\'' :: rest => (readLiteral rest).map fun (cs, rest) => (String.ofList cs, rest)
  | _ => none

/-! ## Keys -/

def isBareKeyChar (c : Char) : Bool := c.isAlphanum || c == '-' || c == '_'

/-- Read one key: bare, or a string on one line. -/
def readKey : TextReader String
  | '\x22' :: rest =>
    (readBasic rest.length rest).map fun (cs, rest) => (String.ofList cs, rest)
  | '\'' :: rest => (readLiteral rest).map fun (cs, rest) => (String.ofList cs, rest)
  | cs =>
    match cs.span isBareKeyChar with
    | ([], _) => none
    | (key, rest) => some (String.ofList key, rest)

/-- The number of levels that keys and values may be nested. -/
def maxDepth : Nat := 80

/-- Read keys with points between them, spaces included. -/
def readKeys : Nat → TextReader (List String)
  | 0, _ => none
  | fuel + 1, cs => do
    let (key, rest) ← readKey (skipSpaces cs)
    match skipSpaces rest with
    | '.' :: rest =>
      let (keys, rest) ← readKeys fuel rest
      return (key :: keys, rest)
    | rest => return ([key], rest)

/-- Read a path of keys and the key at its end. -/
def readPath : TextReader (List String × String) := fun cs => do
  let (keys, rest) ← readKeys (maxDepth - 1) cs
  match keys.getLast? with
  | some key => return ((keys.dropLast, key), rest)
  | none => none

/-! ## Values -/

/-- Read a pair of a key and a value. -/
def readPair (value : TextReader Toml) : TextReader TomlPair := fun cs => do
  let ((path, key), rest) ← readPath cs
  match rest with
  | '=' :: rest =>
    let (v, rest) ← value (skipSpaces rest)
    return (⟨path, key, v⟩, rest)
  | _ => none

/-- Read the items of an array behind its opening bracket, up to and with the closing one. -/
def readItems (item : TextReader Toml) : Nat → TextReader (List Toml)
  | 0, _ => none
  | fuel + 1, cs =>
    match skipBlankLines cs.length cs with
    | ']' :: rest => some ([], rest)
    | cs => do
      let (x, rest) ← item cs
      match skipBlankLines rest.length rest with
      | ']' :: rest => return ([x], rest)
      | ',' :: rest =>
        let (xs, rest) ← readItems item fuel rest
        return (x :: xs, rest)
      | _ => none

/-- Read the pairs of an inline table, up to and with the closing brace. -/
def readInlinePairs (item : TextReader Toml) : Nat → TextReader (List TomlPair)
  | 0, _ => none
  | fuel + 1, cs => do
    let (p, rest) ← readPair item cs
    match skipSpaces rest with
    | '}' :: rest => return ([p], rest)
    | ',' :: rest =>
      let (ps, rest) ← readInlinePairs item fuel rest
      return (p :: ps, rest)
    | _ => none

/-- Read an inline table behind its opening brace. -/
def readInlineTable (item : TextReader Toml) : TextReader Toml := fun cs =>
  match skipSpaces cs with
  | '}' :: rest => some (.table .inline [], rest)
  | cs => do
    let (pairs, rest) ← readInlinePairs item cs.length cs
    return (← TomlTable.ofInline? pairs, rest)

/-- Read a value that is written without quotes and brackets.  A date may have a time behind
    a space. -/
def readWord : TextReader Toml := fun cs =>
  let (word, rest) := cs.span isWordChar
  if isDate word then
    match rest with
    | ' ' :: more =>
      let (time, behind) := more.span isWordChar
      if isTimeWithOffset time then
        some (.dateTime (String.ofList (word ++ ' ' :: time)), behind)
      else some (.dateTime (String.ofList word), rest)
    | rest => some (.dateTime (String.ofList word), rest)
  else (ofWord? word).map fun v => (v, rest)

/-- Read a value in which arrays and inline tables are nested up to `depth` levels. -/
def readValue : Nat → TextReader Toml
  | _, '\x22' :: rest =>
    (readString ('\x22' :: rest)).map fun (s, rest) => (.string s, rest)
  | _, '\'' :: rest => (readString ('\'' :: rest)).map fun (s, rest) => (.string s, rest)
  | 0, '[' :: _ => none
  | 0, '{' :: _ => none
  | depth + 1, '[' :: rest =>
    (readItems (readValue depth) rest.length rest).map fun (xs, rest) => (.array xs, rest)
  | depth + 1, '{' :: rest => readInlineTable (readValue depth) rest
  | _, cs => readWord cs

/-! ## Lines -/

/-- Read a header behind its first bracket. -/
def readHeader : TextReader TomlLine
  | '[' :: rest => do
    let ((path, key), rest) ← readPath rest
    match rest with
    | ']' :: ']' :: rest => return (.header true path key, rest)
    | _ => none
  | cs => do
    let ((path, key), rest) ← readPath cs
    match rest with
    | ']' :: rest => return (.header false path key, rest)
    | _ => none

/-- Read what stands on a line. -/
def readLine : TextReader TomlLine
  | '[' :: rest => readHeader rest
  | cs => (readPair (readValue (maxDepth - 1)) cs).map fun (p, rest) => (.pair p, rest)

/-- Read the lines up to the end of a text. -/
def readAll : Nat → List Char → Option (List TomlLine)
  | 0, _ => none
  | fuel + 1, cs =>
    match skipBlankLines cs.length cs with
    | [] => some []
    | cs => do
      let (line, rest) ← readLine cs
      let lines ← readAll fuel (← dropLineEnd? rest)
      return line :: lines

/-- The lines of a document.  A byte order mark in front does not count. -/
def lines? (text : String) : Option (List TomlLine) :=
  let cs := match text.toList with
    | '\ufeff' :: rest => rest
    | cs => cs
  readAll (cs.length + 1) cs

/-- The table of a document. -/
def parse? (text : String) : Option TomlTable := lines? text >>= TomlTable.ofLines?

end Toml

end EntityStore
