import EntityStore.Session.Basic

/-! # Handles

A handle is a session together with the word whether it was opened for a transaction.

* Without a transaction, commit and rollback are refused and the session is left alone.
* With an open transaction they are passed on.
* Once the transaction has finished they do nothing, so a rollback to clean up behind a
  commit is harmless.

A `TransactionalHandle` is one that is known to be opened for a transaction. -/

namespace EntityStore

/-- A session, and whether it was opened for a transaction. -/
structure Handle where
  session : Session
  transactional : Bool

namespace Handle

/-- A handle that takes part in no transaction. -/
def plain (session : Session) : Handle := ⟨session, false⟩

/-- Whether the transaction is still open. -/
def isActive (h : Handle) : Bool := h.transactional && h.session.isActive

/-- The handle with its session moved on. -/
def withSession (h : Handle) (session : Session) : Handle := { h with session }

/-- The name of an ending in an error. -/
def verb : Ending → String
  | .commit => "commit"
  | .rollback => "rollback"

/-- End the transaction if it is still open. -/
def finish (h : Handle) (ending : Ending) (store : Store) : Outcome Handle Unit :=
  if h.transactional then
    if h.session.isActive then (h.session.finish ending store).mapState h.withSession
    else ⟨.ok (), store, h⟩
  else
    ⟨.error (.transactionState s!"cannot {verb ending} on a non-transactional store handle"),
      store, h⟩

/-- An ending does not change whether a handle is transactional. -/
theorem transactional_finish (h : Handle) (ending : Ending) (store : Store) :
    (h.finish ending store).state.transactional = h.transactional := by
  simp only [finish]
  split
  · split <;> simp [Outcome.mapState, withSession]
  · rfl

end Handle

/-- A handle that was opened for a transaction. -/
structure TransactionalHandle where
  handle : Handle
  transactional : handle.transactional = true

namespace TransactionalHandle

/-- The transaction of a handle, which has to be transactional. -/
def ofHandle (handle : Handle) : Except Error TransactionalHandle :=
  if h : handle.transactional = true then .ok ⟨handle, h⟩
  else .error (.transactionState "DAO transactions require a transactional store handle")

/-- A new transaction on a store. -/
def begin (store : Store) (order : CheckOrder := .ascending) : TransactionalHandle × Store :=
  let (session, store) := Session.begin store order
  (⟨⟨session, true⟩, rfl⟩, store)

/-- The session of the transaction. -/
def session (t : TransactionalHandle) : Session := t.handle.session

/-- Whether the transaction is still open. -/
def isActive (t : TransactionalHandle) : Bool := t.handle.isActive

/-- The transaction with its session moved on. -/
def withSession (t : TransactionalHandle) (session : Session) : TransactionalHandle :=
  ⟨t.handle.withSession session, t.transactional⟩

/-- End the transaction if it is still open. -/
def finish (t : TransactionalHandle) (ending : Ending) (store : Store) :
    Outcome TransactionalHandle Unit :=
  let out := t.handle.finish ending store
  ⟨out.result, out.store,
    ⟨out.state, (t.handle.transactional_finish ending store).trans t.transactional⟩⟩

/-- Give the transaction up: the session it leaves, with an open transaction rolled back. -/
def drop (t : TransactionalHandle) (store : Store) : Outcome Session Unit :=
  (t.finish .rollback store).mapState session

end TransactionalHandle

end EntityStore
