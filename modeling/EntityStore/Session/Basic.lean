import EntityStore.Session.Transaction

/-! # Sessions

A session writes straight through to a store, or it owns one transaction.  A transaction

1. sees its own writes, which it holds back until it commits,
2. remembers the version of every record that it looks up,
3. is refused when it commits if one of these records has changed since,
4. applies all its writes under one version.

Once its transaction has finished a session stays as it is, and operations are refused.

Every operation is given the store and answers with an `Outcome`: the result, the store
behind it and the session behind it, on failure as well as on success. -/

namespace EntityStore

/-- What an operation leaves: its result, the store, and the state it ran on. -/
structure Outcome (σ β : Type) where
  result : Except Error β
  store : Store
  state : σ

/-- An outcome seen from a larger state. -/
def Outcome.mapState {σ τ β : Type} (f : σ → τ) (o : Outcome σ β) : Outcome τ β :=
  ⟨o.result, o.store, f o.state⟩

/-- An outcome with its value changed. -/
def Outcome.map {σ β γ : Type} (f : β → γ) (o : Outcome σ β) : Outcome σ γ :=
  ⟨o.result.map f, o.store, o.state⟩

/-- The two ways to end a transaction. -/
inductive Ending where
  | commit
  | rollback
deriving DecidableEq, Repr

/-- A session on a store. -/
structure Session where
  transaction : Option Transaction := none

namespace Session

/-- A session without a transaction. -/
def plain : Session := {}

/-- A session with a new transaction.  The order in which its commit will check what it has
    read may be any. -/
def begin (store : Store) (order : CheckOrder := .ascending) : Session × Store :=
  let store := store.nextTransaction
  (⟨some { id := store.lastTransaction, order }⟩, store)

/-- The id of the transaction, if there is one. -/
def transactionId (s : Session) : Option UInt64 := s.transaction.map (·.id)

/-- The status of the transaction, if there is one. -/
def status (s : Session) : Option TransactionStatus := s.transaction.map (·.status)

/-- The number of writes held back. -/
def pendingWrites (s : Session) : Nat :=
  match s.transaction with
  | some t => t.writes.size
  | none => 0

/-- Whether there is a transaction that has not finished. -/
def isActive (s : Session) : Bool := s.status == some .active

/-- The transaction that operations run in: none in a plain session, and an error if it has
    finished. -/
def active (s : Session) : Except Error (Option Transaction) :=
  match s.transaction with
  | none => .ok none
  | some t => if t.status = .active then .ok (some t) else .error .transactionNotActive

/-! ## Ending a transaction -/

/-- Commit the transaction.  It ends in any case, rolled back if the store refuses it. -/
def commit (s : Session) (store : Store) : Outcome Session Unit :=
  match s.active with
  | .error e => ⟨.error e, store, s⟩
  | .ok none => ⟨.error .transactionNotActive, store, s⟩
  | .ok (some t) =>
    match store.commit t.order t.reads t.writes with
    | (.ok (), store) => ⟨.ok (), store, ⟨some (t.finish .committed)⟩⟩
    | (.error e, store) => ⟨.error e, store, ⟨some (t.finish .rolledBack)⟩⟩

/-- Roll the transaction back. -/
def rollback (s : Session) (store : Store) : Outcome Session Unit :=
  match s.active with
  | .error e => ⟨.error e, store, s⟩
  | .ok none => ⟨.error .transactionNotActive, store, s⟩
  | .ok (some t) => ⟨.ok (), store, ⟨some (t.finish .rolledBack)⟩⟩

/-- End the transaction in one of the two ways. -/
def finish (s : Session) (ending : Ending) (store : Store) : Outcome Session Unit :=
  match ending with
  | .commit => s.commit store
  | .rollback => s.rollback store

end Session

end EntityStore
