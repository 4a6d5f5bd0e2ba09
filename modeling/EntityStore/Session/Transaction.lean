import EntityStore.Store.Commit

/-! # Transactions

A transaction collects what its store has to know when it commits: the version of every
record that it has looked up, and the writes that it holds back.  It starts out active and
finishes once, committed or rolled back. -/

namespace EntityStore

/-- The life of a transaction. -/
inductive TransactionStatus where
  /-- Open for reads and writes. -/
  | active
  /-- The writes were applied. -/
  | committed
  /-- The writes were dropped, on request or by a commit that failed. -/
  | rolledBack
deriving DecidableEq, Repr

/-- The transaction of a session. -/
structure Transaction where
  id : UInt64
  status : TransactionStatus := .active
  reads : ReadSet := ∅
  writes : WriteSet := ∅
  /-- The order in which its commit checks what was read. -/
  order : CheckOrder := .ascending

namespace Transaction

/-- Finish a transaction; what it has seen and held back is forgotten. -/
def finish (t : Transaction) (status : TransactionStatus) : Transaction :=
  { t with status, reads := ∅, writes := ∅ }

/-- Remember the version of a record, unless one is remembered already. -/
def observe (t : Transaction) (key : RecordKey) (record : Option Record) : Transaction :=
  { t with reads := t.reads.insertIfNew key (Record.seenVersion record) }

/-- Hold back a write. -/
def buffer (t : Transaction) (key : RecordKey) (body : Option Json) : Transaction :=
  { t with writes := t.writes.insert key body }

end Transaction

end EntityStore
