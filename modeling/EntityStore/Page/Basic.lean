import EntityStore.Page.Cursor

/-! # Pages

A `Page` asks for one page of a result, and filled in says what was returned.  The request
itself stays as it was, so a caller can ask again.  `Results` are the items of a query
together with the page they are on; without a page, they are all there are. -/

namespace EntityStore

/-- A request for a page, or the account of one that was returned. -/
structure Page where
  /-- The largest number of items on the page. -/
  size : UInt32
  /-- Where the page starts; nothing means the beginning. -/
  current : Option Cursor := none
  /-- Where the page behind this one starts, if there is one. -/
  next : Option Cursor := none
  /-- The number of items that were returned. -/
  returned : UInt32 := 0
deriving DecidableEq, Repr

namespace Page

/-- A request for the first page. -/
def first (size : UInt32) : Page := { size }

/-- A request for the page that starts at a cursor. -/
def startingAt (size : UInt32) (cursor : Cursor) : Page := { size, current := some cursor }

/-- Whether there is a page behind this one. -/
def hasNext (p : Page) : Bool := p.next.isSome

/-- A count in 32 bits; a larger one is given as the largest. -/
def saturate (n : Nat) : UInt32 := UInt32.ofNat (min n 0xFFFFFFFF)

/-- The account of a page of `count` items that was returned for a request. -/
def fill (p : Page) (current next : Option Cursor) (count : Nat) : Page :=
  { p with current, next, returned := saturate count }

/-- The request for the page behind this one, if there is one. -/
def following? (p : Page) : Option Page := p.next.map (startingAt p.size)

end Page

/-- Items of a query in order, with the page they are on. -/
structure Results (α : Type) where
  items : List α
  page : Option Page
deriving DecidableEq, Repr

namespace Results

variable {α : Type}

/-- No items, and no page. -/
def empty : Results α := ⟨[], none⟩

/-- Put an item behind the others. -/
def push (r : Results α) (item : α) : Results α := { r with items := r.items ++ [item] }

/-- Put several items behind the others. -/
def append (r : Results α) (items : List α) : Results α := { r with items := r.items ++ items }

/-- The number of items. -/
def size (r : Results α) : Nat := r.items.length

/-- Whether there are no items. -/
def isEmpty (r : Results α) : Bool := r.items.isEmpty

end Results

end EntityStore
