/-! # Cursors

A cursor marks a place in an ordered sequence from which reading can go on.  Its contents
belong to the store that made it; a client keeps it, sends it around and hands it back. -/

namespace EntityStore

/-- An opaque token for a place in a sequence. -/
structure Cursor where
  token : String
deriving DecidableEq, Repr, Inhabited

end EntityStore
