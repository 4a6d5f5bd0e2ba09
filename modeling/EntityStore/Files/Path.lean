import EntityStore.Error

/-! # Paths

A path is a string whose segments are separated by `/`.  Empty segments and `.` stay where
they are, `..` goes back; a path that starts with the separator is absolute.

A place is where a path leads from the root, given by its names in reverse. -/

namespace EntityStore

namespace Path

def separator : Char := '/'

/-- Whether a path starts at the root. -/
def isAbsolute (path : String) : Bool := path.toList.head? == some separator

/-- The segments of a path. -/
def segments (path : String) : List String := (path.toList.splitOn separator).map String.ofList

/-- Whether a segment stays where it is. -/
def stays (segment : String) : Bool := segment == "" || segment == "."

/-- The place that a segment leads to.  The root is its own parent. -/
def step (place : List String) (segment : String) : List String :=
  if stays segment then place
  else if segment = ".." then place.tail
  else segment :: place

/-- Whether a path can only name a directory, as its last segment is no name. -/
def namesDirectory (path : String) : Bool :=
  match (segments path).getLast? with
  | some segment => stays segment || segment == ".."
  | none => true

/-- The segments of a path without separators at its end. -/
def trimmedSegments (path : String) : List String :=
  ((segments path).reverse.dropWhile (· == "")).reverse

/-- The largest number of bytes in a name. -/
def maxNameLength : Nat := 255

/-- The largest number of bytes in a path. -/
def maxLength : Nat := 4095

/-- Whether a path may be looked up at all. -/
def check (path : String) : Except IoError Unit :=
  if '\x00' ∈ path.toList then .error .nulInPath
  else if path = "" then .error .notFound
  else if maxLength < (Utf8.encode path).length then .error .nameTooLong
  else .ok ()

/-- The directory that a path leads through last, if it leads anywhere.  A dot at the start
    of a path says that it is relative, and stays at the start of its directory. -/
def parent? (path : String) : Option String :=
  match segments path with
  | "." :: segments =>
    match segments.reverse.dropWhile stays with
    | [] => some ""
    | _ :: directories => some ("/".intercalate ("." :: (directories.dropWhile stays).reverse))
  | segments =>
    match segments.reverse.dropWhile stays with
    | [] => none
    | _ :: directories =>
      let directory := "/".intercalate (directories.dropWhile stays).reverse
      some (if isAbsolute path ∧ ¬isAbsolute directory then "/" ++ directory else directory)

/-- A path taken from a directory.  An absolute path is what it is anywhere. -/
def join (directory path : String) : String :=
  if isAbsolute path ∨ directory = "" then path
  else if directory.toList.getLast? = some separator then directory ++ path
  else directory ++ "/" ++ path

end Path

end EntityStore
