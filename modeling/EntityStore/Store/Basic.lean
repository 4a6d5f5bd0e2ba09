import EntityStore.Store.Record

/-! # The store

A store holds kinds, and one table of records for each of them.  Versions are handed out in
ascending order, one to each plain write of a body, so a record that was written again has a
larger version than before.

* `Store.register`  makes a kind known, once
* `Store.read`, `Store.readFrom`  look records up, one or all from an id on
* `Store.write`  changes one record at once -/

namespace EntityStore

/-- Kinds with their tables, and the counters. -/
structure Store where
  tables : Tables := .empty
  /-- The version handed out last. -/
  version : UInt64 := 0
  /-- The transaction id handed out last. -/
  lastTransaction : UInt64 := 0

namespace Store

/-- A store without kinds. -/
def empty : Store := {}

/-! ## Kinds -/

/-- Whether a kind of this name is registered. -/
def isRegistered (store : Store) (kind : String) : Bool := store.tables.kinds.contains kind

/-- The registered kinds, by ascending name. -/
def kinds (store : Store) : List Kind := store.tables.kinds.toList.map Prod.snd

/-- Make a kind known.  A name can be taken once. -/
def register (store : Store) (kind : Kind) : Except Error Store :=
  if store.isRegistered kind.name then .error (.duplicateKind kind.name)
  else .ok { store with tables := store.tables.register kind }

/-- The table of a kind. -/
def table (store : Store) (kind : String) : Except Error Table :=
  match store.tables.records[kind]? with
  | some t => .ok t
  | none => .error (.kindNotRegistered kind)

/-- The number of records of a kind. -/
def size (store : Store) (kind : String) : Except Error Nat :=
  (store.table kind).map fun t => t.size

/-! ## Reading -/

/-- The record at an address, if there is one. -/
def read (store : Store) (key : RecordKey) : Except Error (Option Record) :=
  (store.table key.kind).map fun t => t[key.id]?

/-- The records of a kind with ids from `start` on. -/
def readFrom (store : Store) (kind : String) (start : Option String) :
    Except Error (Std.ExtTreeMap String Record) :=
  (store.table kind).map fun t =>
    match start with
    | none => t
    | some start => t.filter fun id _ => start ≤ id

/-! ## Writing -/

/-- Replace the table of a kind. -/
def setTable (store : Store) (kind : String) (t : Table) : Store :=
  { store with tables := store.tables.put kind t }

/-- Hand out a version. -/
def nextVersion (store : Store) : Store := { store with version := store.version + 1 }

/-- Hand out a transaction id. -/
def nextTransaction (store : Store) : Store :=
  { store with lastTransaction := store.lastTransaction + 1 }

/-- Put a body at an address, or without one take the record away.  Answers whether there
    was a record before.  Only a body takes a version. -/
def write (store : Store) (key : RecordKey) (body : Option Json) : Except Error (Bool × Store) :=
  match store.table key.kind with
  | .error e => .error e
  | .ok t =>
    let store := if body.isSome then store.nextVersion else store
    .ok (t.contains key.id,
      store.setTable key.kind (t.write key.id store.version body))

end Store

end EntityStore
