/-! # TOML documents

A document is a sequence of lines: pairs of a key and a value, and headers that open a table.
`TomlTable.ofLines?` puts the lines together and refuses what defines a thing twice:

* a key may get one value;
* a table may be opened by one header, and only if no pair has made it;
* a dotted key goes on into tables that dotted keys have made, and through tables that
  stand only for the headers of their subtables. -/

namespace EntityStore

/-- How a table came to be. -/
inductive TableOrigin where
  /-- Opened by a header of its own. -/
  | header
  /-- Named on the way by the header of a table in it. -/
  | implied
  /-- Made by a dotted key. -/
  | dotted
  /-- Written between braces. -/
  | inline
deriving DecidableEq, Repr

/-- A value of a document.  Numbers with a fraction and dates are kept as they were
    written. -/
inductive Toml where
  | string (s : String)
  | integer (n : Int)
  | boolean (b : Bool)
  | float (text : String)
  | dateTime (text : String)
  | array (items : List Toml)
  | table (origin : TableOrigin) (entries : List (String × Toml))
  /-- The tables of one repeated header, the last one first. -/
  | tables (elements : List (List (String × Toml)))

/-- The entries of a table. -/
abbrev TomlTable := List (String × Toml)

/-- A key with a value.  The path leads through tables to the table of the key. -/
structure TomlPair where
  path : List String
  key : String
  value : Toml

/-- What stands on a line. -/
inductive TomlLine where
  | pair (p : TomlPair)
  /-- A header opens a table, or one more of the tables of a repeated header. -/
  | header (repeated : Bool) (path : List String) (key : String)

namespace TomlTable

/-- Give a key its value, in the place of the one it has. -/
def set (key : String) (value : Toml) : TomlTable → TomlTable
  | [] => [(key, value)]
  | (k, v) :: entries =>
    if k = key then (key, value) :: entries else (k, v) :: set key value entries

/-- Give a key a value behind a path of dotted keys. -/
def insert? (key : String) (value : Toml) : List String → TomlTable → Option TomlTable
  | [], t => if (t.lookup key).isSome then none else some (t ++ [(key, value)])
  | k :: path, t =>
    match t.lookup k with
    | none => (insert? key value path []).map fun sub => set k (.table .dotted sub) t
    | some (.table origin sub) =>
      if origin = .dotted ∨ (origin = .implied ∧ path ≠ []) then
        (insert? key value path sub).map fun sub => set k (.table origin sub) t
      else none
    | some (.tables (last :: others)) =>
      if path = [] then none
      else (insert? key value path last).map fun last => set k (.tables (last :: others)) t
    | some _ => none

/-- Change the table that a path of a header leads to. -/
def atPath? (change : TomlTable → Option TomlTable) : List String → TomlTable → Option TomlTable
  | [], t => change t
  | k :: path, t =>
    match t.lookup k with
    | none => (atPath? change path []).map fun sub => set k (.table .implied sub) t
    | some (.table .inline _) => none
    | some (.table origin sub) =>
      (atPath? change path sub).map fun sub => set k (.table origin sub) t
    | some (.tables (last :: others)) =>
      (atPath? change path last).map fun last => set k (.tables (last :: others)) t
    | some _ => none

/-- Add pairs in order. -/
def insertAll? : List TomlPair → TomlTable → Option TomlTable
  | [], t => some t
  | p :: pairs, t => insert? p.key p.value p.path t >>= insertAll? pairs

/-- Open the table of a header and add the pairs below it. -/
def openTable? (key : String) (pairs : List TomlPair) (t : TomlTable) : Option TomlTable :=
  match t.lookup key with
  | none => (insertAll? pairs []).map fun sub => set key (.table .header sub) t
  | some (.table .implied sub) =>
    (insertAll? pairs sub).map fun sub => set key (.table .header sub) t
  | some _ => none

/-- Open one more table of a repeated header and add the pairs below it. -/
def openElement? (key : String) (pairs : List TomlPair) (t : TomlTable) : Option TomlTable :=
  match t.lookup key with
  | none => (insertAll? pairs []).map fun sub => set key (.tables [sub]) t
  | some (.tables elements) =>
    (insertAll? pairs []).map fun sub => set key (.tables (sub :: elements)) t
  | some _ => none

/-- A header with the pairs below it. -/
structure Section where
  repeated : Bool
  path : List String
  key : String
  pairs : List TomlPair

/-- The pairs before the first header, and the headers with the pairs below each. -/
def sections : List TomlLine → List TomlPair × List Section
  | [] => ([], [])
  | .pair p :: lines =>
    let (pairs, rest) := sections lines
    (p :: pairs, rest)
  | .header repeated path key :: lines =>
    let (pairs, rest) := sections lines
    ([], ⟨repeated, path, key, pairs⟩ :: rest)

/-- Add sections in order. -/
def addSections? : List Section → TomlTable → Option TomlTable
  | [], t => some t
  | s :: rest, t => do
    let change := if s.repeated then openElement? s.key s.pairs else openTable? s.key s.pairs
    let t ← atPath? change s.path t
    addSections? rest t

/-- The table that the lines of a document make. -/
def ofLines? (lines : List TomlLine) : Option TomlTable := do
  let (pairs, rest) := sections lines
  addSections? rest (← insertAll? pairs [])

/-- The table that the pairs between braces make. -/
def ofInline? (pairs : List TomlPair) : Option Toml :=
  (insertAll? pairs []).map (.table .inline)

end TomlTable

end EntityStore
