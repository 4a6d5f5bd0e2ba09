import EntityStore.Store.Basic

/-! # Commits

A transaction hands two sets to its store when it commits: the versions of the records that
it has looked up, and the writes that it has held back.  The store refuses a commit if one of
these records has another version by now.  Otherwise all writes are applied under one new
version.

The versions are checked one after the other, and the first one that has changed is named in
the refusal.  No order is prescribed for this, so it is a parameter, the `CheckOrder` of the
transaction.  It decides which record a conflict names, and nothing else. -/

namespace EntityStore

/-- The versions that a transaction has seen; 0 stands for a record that was absent.  The map
    lists them by key, which is a choice made here: a commit need not check them in this
    order. -/
abbrev ReadSet := Std.ExtTreeMap RecordKey UInt64

/-- The writes that a transaction holds back; without a body, a delete. -/
abbrev WriteSet := Std.ExtTreeMap RecordKey (Option Json)

/-- An order in which a commit checks the versions that its transaction has seen.  Any order
    will do. -/
structure CheckOrder where
  visit : ReadSet → List (RecordKey × UInt64)
  perm : ∀ reads, (visit reads).Perm reads.toList

/-- By key, from the smallest on. -/
def CheckOrder.ascending : CheckOrder := ⟨fun reads => reads.toList, fun _ => .refl _⟩

namespace Store

/-- The reason given for a record that has changed since it was read. -/
def staleReason (key : RecordKey) (seen current : UInt64) : String :=
  s!"{key.kind}:{key.id} changed since read (read version {seen.toNat}, now {current.toNat})"

/-- Check that records still have the versions that were seen, and name the first that has
    not. -/
def checkReads (store : Store) : List (RecordKey × UInt64) → Except Error Unit
  | [] => .ok ()
  | (key, seen) :: reads =>
    match store.read key with
    | .error e => .error e
    | .ok record =>
      let current := Record.seenVersion record
      if current ≠ seen then .error (.transactionConflict (staleReason key seen current))
      else checkReads store reads

/-- Apply writes one after the other under the version handed out last.  A kind that is not
    registered stops them. -/
def writeAll (store : Store) : List (RecordKey × Option Json) → Except Error Unit × Store
  | [] => (.ok (), store)
  | (key, body) :: writes =>
    match store.table key.kind with
    | .error e => (.error e, store)
    | .ok t =>
      writeAll (store.setTable key.kind (t.write key.id store.version body)) writes

/-- Check what was read, in the order given, and apply all writes under one new version.
    Without writes no version is taken. -/
def commit (store : Store) (order : CheckOrder) (reads : ReadSet) (writes : WriteSet) :
    Except Error Unit × Store :=
  match store.checkReads (order.visit reads) with
  | .error e => (.error e, store)
  | .ok () => if writes.isEmpty then (.ok (), store) else store.nextVersion.writeAll writes.toList

end Store

end EntityStore
