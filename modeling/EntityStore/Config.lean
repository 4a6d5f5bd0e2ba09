import EntityStore.Files.Tree
import EntityStore.Page.Basic
import EntityStore.Toml.Quoted
import EntityStore.Toml.Reader

/-! # Configuration

The sizes of pages, and the list of kinds to register at the start.  A configuration is kept
in a TOML file; a key that is missing there has its default, and keys of other names are not
looked at.

* `Config.ofFile`  reads a file; a relative path in it is taken from the file's directory
* `Config.writeFile`  writes one -/

namespace EntityStore

/-- The settings of a store that is set up for use. -/
structure Config where
  /-- The path of the list of kinds to register, if there is one. -/
  entities : Option String := none
  /-- The size of a first page that nobody gave a size. -/
  defaultPageSize : UInt32 := 20
  /-- The largest size of a page. -/
  maxPageSize : UInt32 := 1000
deriving DecidableEq, Repr

namespace Config

/-- The text of a configuration file with the defaults. -/
def defaultText : String :=
  "# Cairn configuration\n" ++
  "#\n" ++
  "# Entity kind resource registered at startup (optional).\n" ++
  "# One kind name per line; blank lines and lines starting with '#' are skipped.\n" ++
  "# entities = \x22entities.txt\x22\n" ++
  "\n" ++
  "# Page size for first_page() requests (default: 20)\n" ++
  "default_page_size = 20\n" ++
  "\n" ++
  "# Largest page a DAO will assemble; larger requests are rejected (default: 1000)\n" ++
  "max_page_size = 1000\n"

/-- Check that a page of the default size is allowed. -/
def validate (c : Config) : Except Error Unit :=
  if c.defaultPageSize > c.maxPageSize then
    .error (.invalidInput (s!"default_page_size {c.defaultPageSize.toNat}" ++
      s!" exceeds max_page_size {c.maxPageSize.toNat}"))
  else .ok ()

/-- Check that the page of a request is allowed. -/
def checkPageSize (c : Config) (request : Option Page) : Except Error Unit :=
  match request with
  | none => .ok ()
  | some p =>
    if p.size > c.maxPageSize then
      .error (.invalidInput s!"page size {p.size.toNat} exceeds maximum {c.maxPageSize.toNat}")
    else .ok ()

/-! ## Reading -/

/-- The page size of a key, or its default if the key is missing. -/
def pageSize? (t : TomlTable) (key : String) (default : UInt32) : Option UInt32 :=
  match t.lookup key with
  | none => some default
  | some (.integer n) =>
    if 0 ≤ n ∧ n.toNat < UInt32.size then some (UInt32.ofNat n.toNat) else none
  | some _ => none

/-- The string of a key that may be missing. -/
def path? (t : TomlTable) (key : String) : Option (Option String) :=
  match t.lookup key with
  | none => some none
  | some (.string s) => some (some s)
  | some _ => none

/-- The configuration that a document describes. -/
def ofTable? (t : TomlTable) : Option Config := do
  let entities ← path? t "entities"
  let defaultPageSize ← pageSize? t "default_page_size" 20
  let maxPageSize ← pageSize? t "max_page_size" 1000
  return { entities, defaultPageSize, maxPageSize }

/-- The configuration that a text describes. -/
def ofText? (text : String) : Option Config := Toml.parse? text >>= ofTable?

/-- A configuration read from a file, with a relative path taken from its directory. -/
def resolve (c : Config) (path : String) : Config :=
  match c.entities, Path.parent? path with
  | some entities, some directory =>
    if Path.isAbsolute entities then c
    else { c with entities := some (Path.join directory entities) }
  | _, _ => c

/-- The configuration in a file.  What the reader of TOML has against a text is left out of the
    message. -/
def ofFile (files : FileTree) (path : String) : Except Error Config :=
  match files.readText path with
  | .error e => .error (.configuration s!"Failed to read config file '{path}': {e.message}")
  | .ok text =>
    match ofText? text with
    | none => .error (.invalidInput s!"Failed to parse config file '{path}'")
    | some c => c.validate.map fun _ => c.resolve path

/-- The configuration in a file, or the defaults if there is no such file. -/
def ofFileOrDefault (files : FileTree) (path : String) : Except Error Config :=
  if files.contains path then ofFile files path else .ok {}

/-! ## Writing -/

/-- The text of a configuration file. -/
def render (c : Config) : String :=
  (match c.entities with
    | some entities => s!"entities = {Toml.quote entities}\n"
    | none => "") ++
  s!"default_page_size = {c.defaultPageSize.toNat}\nmax_page_size = {c.maxPageSize.toNat}\n"

/-- Write a configuration to a file. -/
def writeFile (c : Config) (files : FileTree) (path : String) : Except Error FileTree :=
  match files.write path (Utf8.encode c.render) with
  | .ok files => .ok files
  | .error e => .error (.configuration s!"Failed to write config file '{path}': {e.message}")

/-- Write the defaults to a file unless it is there. -/
def writeDefaultIfMissing (files : FileTree) (path : String) : Except Error FileTree :=
  if files.contains path then .ok files
  else
    match files.write path (Utf8.encode defaultText) with
    | .ok files => .ok files
    | .error e =>
      .error (.configuration s!"Failed to write default config file '{path}': {e.message}")

end Config

end EntityStore
