import EntityStore.Bytes
import EntityStore.Error
import EntityStore.Text.Blank

/-! # Lists of kinds

A kind list is a text with one name on a line.  Blanks around a name do not count; empty
lines and lines that start with `#` name nothing.  The text has to be UTF-8. -/

namespace EntityStore

namespace KindListing

def lineFeed : UInt8 := 0x0A

/-- Whether a line without the blanks around it is a name. -/
def isName (line : String) : Bool :=
  match line.toList with
  | [] => false
  | c :: _ => c != '#'

/-- The names on some lines. -/
def namesOf : List Bytes → Except Error (List String)
  | [] => .ok []
  | line :: lines =>
    match Utf8.decode? line with
    | none => .error (.io .invalidUtf8)
    | some text => do
      let names ← namesOf lines
      return if isName (Text.trim text) then Text.trim text :: names else names

/-- The names in a list. -/
def parse (bytes : Bytes) : Except Error (List String) := namesOf (bytes.splitOn lineFeed)

end KindListing

end EntityStore
