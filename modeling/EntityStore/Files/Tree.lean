import EntityStore.Bytes
import EntityStore.Error
import EntityStore.Files.Path

/-! # File trees

The files that configurations and kind lists are read from and written to: a tree of
directories with files of bytes at its leaves.  An operation that cannot be done says why. -/

namespace EntityStore

/-- A file or a directory. -/
inductive FileTree where
  | file (content : Bytes)
  | directory (entries : List (String × FileTree))

namespace FileTree

/-- Put an entry into a directory, in the place of one of the same name. -/
def setEntry (name : String) (tree : FileTree) :
    List (String × FileTree) → List (String × FileTree)
  | [] => [(name, tree)]
  | (k, t) :: entries =>
    if k = name then (name, tree) :: entries else (k, t) :: setEntry name tree entries

/-- The entry of this name. -/
def child (name : String) : FileTree → Except IoError FileTree
  | .file _ => .error .notADirectory
  | .directory entries =>
    if Path.maxNameLength < (Utf8.encode name).length then .error .nameTooLong
    else
      match entries.lookup name with
      | none => .error .notFound
      | some tree => .ok tree

/-- What stands at the end of some names. -/
def lookup : FileTree → List String → Except IoError FileTree
  | tree, [] => .ok tree
  | tree, name :: names =>
    match tree.child name with
    | .error e => .error e
    | .ok tree => lookup tree names

/-- Change what stands at the end of some names.  The directories on the way have to be
    there; the last name may be a new one. -/
def update (change : Option FileTree → Except IoError FileTree) :
    FileTree → List String → Except IoError FileTree
  | tree, [] => change (some tree)
  | .file _, _ :: _ => .error .notADirectory
  | .directory entries, name :: names =>
    match child name (.directory entries), names with
    | .ok tree, names =>
      (update change tree names).map fun tree => .directory (setEntry name tree entries)
    | .error .notFound, [] =>
      (change none).map fun tree => .directory (setEntry name tree entries)
    | .error e, _ => .error e

/-- Put a file at the end of some names. -/
def put (content : Bytes) (tree : FileTree) (names : List String) : Except IoError FileTree :=
  tree.update
    (fun
      | some (.directory _) => .error .isADirectory
      | _ => .ok (.file content))
    names

/-- Make a directory at the end of some names, unless it is there. -/
def makeDirectory (tree : FileTree) (names : List String) : Except IoError FileTree :=
  tree.update
    (fun
      | none => .ok (.directory [])
      | some (.file _) => .error .notADirectory
      | some (.directory entries) => .ok (.directory entries))
    names

/-! ## Paths in a tree -/

/-- Follow segments from a place.  Any segment, `.` and `..` too, leads on only from a
    directory. -/
def follow (root : FileTree) (place : List String) : List String → Except IoError (List String)
  | [] => .ok place
  | segment :: segments =>
    match root.lookup place.reverse with
    | .error e => .error e
    | .ok (.file _) => .error .notADirectory
    | .ok (.directory _) => root.follow (Path.step place segment) segments

/-- What a path names. -/
def find (tree : FileTree) (path : String) : Except IoError FileTree := do
  Path.check path
  let place ← tree.follow [] (Path.segments path)
  tree.lookup place.reverse

/-- Whether a path names anything. -/
def contains (tree : FileTree) (path : String) : Bool := (tree.find path).isOk

/-- The bytes of what `find` has found: a directory has none. -/
def content : FileTree → Except IoError Bytes
  | .file content => .ok content
  | .directory _ => .error .isADirectory

/-- The text of the file at a path. -/
def readText (tree : FileTree) (path : String) : Except IoError String := do
  match Utf8.decode? (← (← tree.find path).content) with
  | some text => return text
  | none => throw .invalidUtf8

/-- Write the file at a path, whether it is there or not.  A path that ends like that of a
    directory is refused once its way has been followed. -/
def write (tree : FileTree) (path : String) (content : Bytes) : Except IoError FileTree := do
  Path.check path
  let place ← tree.follow [] (Path.trimmedSegments path)
  if Path.namesDirectory path then throw .isADirectory
  tree.put content place.reverse

/-- Make the directories at the places that segments lead to one after the other. -/
def makeAlong (tree : FileTree) (place : List String) : List String → Except IoError FileTree
  | [] => .ok tree
  | segment :: segments =>
    let place := Path.step place segment
    match tree.makeDirectory place.reverse with
    | .error e => .error e
    | .ok tree => tree.makeAlong place segments

/-- Make the directories that a path leads through and to. -/
def makeDirectories (tree : FileTree) (path : String) : Except IoError FileTree := do
  Path.check path
  tree.makeAlong [] (Path.segments path)

end FileTree

end EntityStore
