import EntityStore.Session.Handle

/-! # Transactions of callers

A caller may hold transactions of this store and of other persistence layers, and passes one
to the operations that are to run in it.  Only a transaction of this store will do; of
another one no more is known here than the name of its type, and its own layer ends it. -/

namespace EntityStore

/-- A transaction that a caller passes. -/
inductive CallerTransaction where
  /-- A transaction of this store. -/
  | own (handle : TransactionalHandle)
  /-- A transaction of another persistence layer, by the name of its type. -/
  | foreign (typeName : String)

namespace CallerTransaction

/-- The type name of the transactions of this store. -/
def ownTypeName : String := "cairn_concurrency::DaoTransaction<cairn_storage::MemorySession>"

/-- The type name of what was passed. -/
def typeName : CallerTransaction → String
  | .own _ => ownTypeName
  | .foreign typeName => typeName

/-- Whether the transaction is still open. -/
def isActive : CallerTransaction → Bool
  | .own handle => handle.isActive
  | .foreign _ => false

/-- What happens to a transaction in an ending. -/
def participle : Ending → String
  | .commit => "committed"
  | .rollback => "rolled back"

/-- End the transaction if it is still open, unless another layer does. -/
def finish (t : CallerTransaction) (ending : Ending) (store : Store) :
    Outcome CallerTransaction Unit :=
  match t with
  | .own handle => (handle.finish ending store).mapState own
  | .foreign typeName =>
    ⟨.error (.transactionState
        s!"{typeName} is {participle ending} by its own persistence layer"),
      store, .foreign typeName⟩

/-- The transaction of this store that a caller has to pass. -/
def expect : Option CallerTransaction → Except Error TransactionalHandle
  | none => .error .nullTransaction
  | some (.own handle) => .ok handle
  | some (.foreign typeName) => .error (.transactionTypeMismatch ownTypeName typeName)

/-- Run an operation in the session of the transaction that a caller passed. -/
def run {β : Type} (t : Option CallerTransaction) (store : Store)
    (operation : Session → Store → Outcome Session β) : Outcome (Option CallerTransaction) β :=
  match expect t with
  | .error e => ⟨.error e, store, t⟩
  | .ok handle =>
    (operation handle.session store).mapState fun s => some (.own (handle.withSession s))

end CallerTransaction

end EntityStore
