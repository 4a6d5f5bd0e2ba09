import EntityStore.Error

/-! # Records

A record is a JSON body and the version it was written under.  A record key is its address
in a store: the name of a kind, and an id within the kind.  A table holds the records of one
kind by their ids.  The tables of a store lie beside the kinds that they belong to.

Keys are ordered by kind and then by id, both by code points. -/

namespace EntityStore

/-- A record of a table. -/
structure Record where
  version : UInt64
  body : Json
deriving BEq

/-- The version that a look at a record shows; 0 if there is none. -/
def Record.seenVersion : Option Record → UInt64
  | some record => record.version
  | none => 0

/-- The address of a record. -/
structure RecordKey where
  kind : String
  id : String
deriving DecidableEq, Repr

namespace RecordKey

instance : Ord RecordKey := ⟨compareLex (compareOn RecordKey.kind) (compareOn RecordKey.id)⟩

instance : Std.TransOrd RecordKey :=
  inferInstanceAs (Std.TransCmp (compareLex (compareOn kind) (compareOn id)))

instance : Std.LawfulEqOrd RecordKey where
  eq_of_compare {a b} h := by
    obtain ⟨hk, hi⟩ := Ordering.then_eq_eq.1 h
    cases a; cases b
    simp only [compareOn] at hk hi
    rw [Std.LawfulEqOrd.eq_of_compare hk, Std.LawfulEqOrd.eq_of_compare hi]

end RecordKey

/-- The records of one kind by their ids. -/
abbrev Table := Std.ExtTreeMap String Record

/-- Put a body under a version at an id, or without a body take the record away. -/
def Table.write (t : Table) (id : String) (version : UInt64) (body : Option Json) : Table :=
  match body with
  | some body => t.insert id ⟨version, body⟩
  | none => t.erase id

/-- Registered kinds, and their records, both by the names of the kinds. -/
structure Tables where
  kinds : Std.ExtTreeMap String Kind
  records : Std.ExtTreeMap String Table
  /-- There are records just under the names of the kinds. -/
  same_names : ∀ name, records.contains name = kinds.contains name

namespace Tables

/-- No kinds. -/
def empty : Tables where
  kinds := ∅
  records := ∅
  same_names _ := Std.ExtTreeMap.contains_empty.trans Std.ExtTreeMap.contains_empty.symm

/-- Add a kind, and an empty table for it. -/
def register (t : Tables) (kind : Kind) : Tables where
  kinds := t.kinds.insert kind.name kind
  records := t.records.insert kind.name ∅
  same_names name := by
    rw [Std.ExtTreeMap.contains_insert, Std.ExtTreeMap.contains_insert, t.same_names]

/-- Replace the table of a kind. -/
def put (t : Tables) (name : String) (table : Table) : Tables where
  kinds := t.kinds
  records := t.records.modify name fun _ => table
  same_names name' := by
    rw [Std.ExtTreeMap.contains_modify, t.same_names]

end Tables

end EntityStore
