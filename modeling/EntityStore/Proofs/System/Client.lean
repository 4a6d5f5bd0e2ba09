import EntityStore.Collection
import EntityStore.Proofs.Session.Effect

/-! # Clients

A client holds a session, as it is or wrapped: in a handle, in the transaction of a handle,
or in the transaction that a caller passes to a collection.  Each wrapping has operations of
its own, yet all of them come down to one operation of the session, or to none.

* `Access`           the operations of a collection, in their three forms
* `Client`           a session and its wrapping
* `Action.run?`      lets a client do something, if its wrapping has the operation
* `Action.moves`     whatever a client does, its session makes at most one operation -/

namespace EntityStore

/-! ## Accesses -/

/-- An operation of a collection, with the type of its answer. -/
inductive Access : Type → Type 1 where
  | get {α : Type} (c : Collection α) (id : String) : Access (Option α)
  | put {α : Type} (c : Collection α) (entity : α) : Access Unit
  | delete {α : Type} (c : Collection α) (id : String) : Access Bool
  | find {α : Type} (c : Collection α) (request : Option Page) (pred : α → Bool) :
    Access (Results α)

namespace Access

variable {β : Type}

/-- Make an access in a session that is given. -/
def on : Access β → Session → Store → Outcome Session β
  | .get c id => c.getOn id
  | .put c entity => c.putOn entity
  | .delete c id => c.deleteOn id
  | .find c request pred => c.findOn request pred

/-- Make an access outside of transactions. -/
def alone : Access β → Store → Except Error β × Store
  | .get c id, store => c.get store id
  | .put c entity, store => c.put store entity
  | .delete c id, store => c.delete store id
  | .find c request pred, store => c.find store request pred

/-- Make an access in the transaction that a caller passes. -/
def inside : Access β → Option CallerTransaction → Store → Outcome (Option CallerTransaction) β
  | .get c id, t, store => c.getIn t store id
  | .put c entity, t, store => c.putIn t store entity
  | .delete c id, t, store => c.deleteIn t store id
  | .find c request pred, t, store => c.findIn t store request pred

/-- The operation that an access makes in a session. -/
def operation : Access β → (γ : Type) × Operation γ
  | .get c id => ⟨_, .load c.type id⟩
  | .put c entity => ⟨_, .save c.type entity⟩
  | .delete c id => ⟨_, .delete c.type id⟩
  | .find c request _ => ⟨_, .query c.type (request.bind Page.current)⟩

/-- An access outside of transactions runs in a plain session of its own. -/
theorem alone_eq (a : Access β) (store : Store) :
    a.alone store = Collection.runPlain store a.on := by
  cases a <;> rfl

/-- An access in a transaction runs in the session of that transaction. -/
theorem inside_eq (a : Access β) (t : Option CallerTransaction) (store : Store) :
    a.inside t store = CallerTransaction.run t store a.on := by
  cases a <;> rfl

/-- An access leaves the store and the session that its operation leaves. -/
theorem on_eq (a : Access β) (s : Session) (store : Store) :
    (a.on s store).store = (a.operation.2.run s store).store ∧
      (a.on s store).state = (a.operation.2.run s store).state := by
  cases a <;> exact ⟨rfl, rfl⟩

end Access

/-! ## Wrappings -/

/-- A session and its wrapping. -/
inductive Client where
  | session (s : Session)
  | handle (h : Handle)
  | transaction (t : TransactionalHandle)
  /-- What a caller has to pass, if there is anything. -/
  | caller (t : Option CallerTransaction)
  /-- A client that has been given up. -/
  | dropped (s : Option Session)

/-- A wrapping that is put around a client. -/
inductive Layer where
  | handle (transactional : Bool)
  | transaction
  | caller

namespace Client

variable {β : Type}

/-- The session of a client, if it has one on this store. -/
def session? : Client → Option Session
  | .session s => some s
  | .handle h => some h.session
  | .transaction t => some t.session
  | .caller (some (.own t)) => some t.session
  | .caller _ => none
  | .dropped s => s

/-- Run an operation in the session of a client. -/
def operate (op : Operation β) : Client → Store → Option (Outcome Client β)
  | .session s, store => some ((op.run s store).mapState .session)
  | .handle h, store =>
    some ((op.run h.session store).mapState fun s => .handle (h.withSession s))
  | .transaction t, store =>
    some ((op.run t.session store).mapState fun s => .transaction (t.withSession s))
  | .caller (some (.own t)), store =>
    some ((op.run t.session store).mapState fun s => .caller (some (.own (t.withSession s))))
  | .caller _, _ | .dropped _, _ => none

/-- Make an access in the transaction that a client passes. -/
def access (a : Access β) : Client → Store → Option (Outcome Client β)
  | .caller t, store => some ((a.inside t store).mapState .caller)
  | _, _ => none

/-- End the transaction of a client in the way of its wrapping. -/
def finish (ending : Ending) : Client → Store → Option (Outcome Client Unit)
  | .handle h, store => some ((h.finish ending store).mapState .handle)
  | .transaction t, store => some ((t.finish ending store).mapState .transaction)
  | .caller (some t), store =>
    some ((t.finish ending store).mapState fun t => .caller (some t))
  | _, _ => none

/-- Put a wrapping around a client.  A handle that is refused is given up. -/
def wrap : Layer → Client → Store → Option (Outcome Client Unit)
  | .handle transactional, .session s, store => some ⟨.ok (), store, .handle ⟨s, transactional⟩⟩
  | .transaction, .handle h, store =>
    match TransactionalHandle.ofHandle h with
    | .ok t => some ⟨.ok (), store, .transaction t⟩
    | .error e => some ⟨.error e, store, .dropped (some h.session)⟩
  | .caller, .transaction t, store => some ⟨.ok (), store, .caller (some (.own t))⟩
  | _, _, _ => none

/-- Take the outermost wrapping off, where it can be taken off. -/
def unwrap : Client → Store → Option (Outcome Client Unit)
  | .handle h, store => some ⟨.ok (), store, .session h.session⟩
  | .caller (some (.own t)), store => some ⟨.ok (), store, .transaction t⟩
  | _, _ => none

/-- Give a client up.  The wrapping for transactions rolls one back that is still open. -/
def drop : Client → Store → Option (Outcome Client Unit)
  -- a session or a handle is forgotten as it stands, and so is its transaction
  | .session s, store => some ⟨.ok (), store, .dropped (some s)⟩
  | .handle h, store => some ⟨.ok (), store, .dropped (some h.session)⟩
  | .transaction t, store | .caller (some (.own t)), store =>
    some ⟨.ok (), (t.drop store).store, .dropped (some (t.drop store).state)⟩
  | .caller _, store => some ⟨.ok (), store, .dropped none⟩
  | .dropped _, _ => none

/-- Whether the transaction of a client is still open, in the way of its wrapping. -/
def isActive : Client → Option Bool
  | .session s => some s.isActive
  | .handle h => some h.isActive
  | .transaction t => some t.isActive
  | .caller (some t) => some t.isActive
  | _ => none

/-- The id and the status of the transaction of a client, and the number of writes that it
    holds back. -/
def inspect : Client → Option (Option UInt64 × Option TransactionStatus × Nat)
  | .dropped _ => none
  | c => c.session?.map fun s => (s.transactionId, s.status, s.pendingWrites)

end Client

/-! ## Actions -/

/-- Something that a client can do, with the type of its answer. -/
inductive Action : Type → Type 1 where
  | operate {β : Type} (op : Operation β) : Action β
  | access {β : Type} (a : Access β) : Action β
  | finish (ending : Ending) : Action Unit
  | wrap (layer : Layer) : Action Unit
  | unwrap : Action Unit
  | drop : Action Unit
  | isActive : Action Bool
  | inspect : Action (Option UInt64 × Option TransactionStatus × Nat)

namespace Action

variable {β : Type}

/-- Let a client do something.  There is no outcome if it cannot. -/
def run? : Action β → Client → Store → Option (Outcome Client β)
  | .operate op, c, store => c.operate op store
  | .access a, c, store => c.access a store
  | .finish ending, c, store => c.finish ending store
  | .wrap layer, c, store => c.wrap layer store
  | .unwrap, c, store => c.unwrap store
  | .drop, c, store => c.drop store
  | .isActive, c, store => c.isActive.map fun b => ⟨.ok b, store, c⟩
  | .inspect, c, store => c.inspect.map fun seen => ⟨.ok seen, store, c⟩

/-- Whether an action looks data up or changes it, in the session or through a collection. -/
def isData : Action β → Bool
  | .operate op => op.ending?.isNone
  | .access _ => true
  | _ => false

end Action

/-! ## What becomes of the session -/

/-- What may become of a store and of a session: nothing, or what one operation of the
    session makes of them. -/
inductive Moves (store : Store) : Option Session → Store → Option Session → Prop where
  | stays (s : Option Session) : Moves store s store s
  | operates {γ : Type} (op : Operation γ) (s : Session) :
    Moves store (some s) (op.run s store).store (some (op.run s store).state)

section

variable {β : Type} {c : Client} {store : Store} {out : Outcome Client β}

/-- A handle passes an ending on, unless it is refused or has nothing to end. -/
theorem Handle.moves_finish (h : Handle) (ending : Ending) (store : Store) :
    Moves store (some h.session) (h.finish ending store).store
      (some (h.finish ending store).state.session) := by
  unfold Handle.finish
  split
  · split
    · exact .operates (.finish ending) h.session
    · exact .stays _
  · exact .stays _

namespace Client

/-- A client that makes an operation moves its session by that operation. -/
theorem moves_operate {op : Operation β} (h : c.operate op store = some out) :
    Moves store c.session? out.store out.state.session? := by
  cases c with
  | caller t =>
    match t with
    | some (.own t) =>
      obtain rfl := Option.some.inj h
      exact .operates op t.session
    -- only a transaction of this layer makes operations
    | some (.foreign _) => cases h
    | none => cases h
  | dropped s => cases h
  | _ =>
    obtain rfl := Option.some.inj h
    exact .operates op _

/-- An access in a transaction moves the session of the transaction by one operation. -/
theorem moves_access {a : Access β} (h : c.access a store = some out) :
    Moves store c.session? out.store out.state.session? := by
  cases c with
  | caller t =>
    obtain rfl := Option.some.inj h
    rw [a.inside_eq]
    match t with
    | some (.own t) =>
      -- the answer is that of the access, but what it leaves is what its operation leaves
      obtain ⟨hstore, hstate⟩ := a.on_eq t.session store
      have hmoves : Moves store (some t.session) _ _ := .operates a.operation.2 t.session
      rw [← hstore, ← hstate] at hmoves
      exact hmoves
    | some (.foreign _) => exact .stays _
    | none => exact .stays _
  | _ => cases h

/-- An ending moves the session of a client by an operation, or not at all. -/
theorem moves_finish {ending : Ending} {out : Outcome Client Unit}
    (h : c.finish ending store = some out) :
    Moves store c.session? out.store out.state.session? := by
  cases c with
  | handle h' =>
    obtain rfl := Option.some.inj h
    exact h'.moves_finish ending store
  | transaction t =>
    obtain rfl := Option.some.inj h
    exact t.handle.moves_finish ending store
  | caller t =>
    match t with
    | some (.own t) =>
      obtain rfl := Option.some.inj h
      exact t.handle.moves_finish ending store
    -- a transaction of another layer has no session here
    | some (.foreign _) =>
      obtain rfl := Option.some.inj h
      exact .stays _
    | none => cases h
  | _ => cases h

/-- Wrapping does not touch the session, even where it is refused. -/
theorem moves_wrap {layer : Layer} {out : Outcome Client Unit}
    (h : c.wrap layer store = some out) :
    Moves store c.session? out.store out.state.session? := by
  unfold wrap at h
  split at h
  · obtain rfl := Option.some.inj h
    exact .stays _
  · split at h
    · next t ht =>
      obtain rfl := Option.some.inj h
      -- the transaction is that of the handle
      rw [TransactionalHandle.ofHandle] at ht
      split at ht
      · obtain rfl := Except.ok.inj ht
        exact .stays _
      · cases ht
    · obtain rfl := Option.some.inj h
      exact .stays _
  · obtain rfl := Option.some.inj h
    exact .stays _
  · cases h

/-- Taking a wrapping off leaves the session as it is. -/
theorem moves_unwrap {out : Outcome Client Unit} (h : c.unwrap store = some out) :
    Moves store c.session? out.store out.state.session? := by
  unfold unwrap at h
  split at h
  · obtain rfl := Option.some.inj h
    exact .stays _
  · obtain rfl := Option.some.inj h
    exact .stays _
  · cases h

/-- A transaction that is given up is rolled back by its handle, if at all. -/
theorem moves_drop {out : Outcome Client Unit} (h : c.drop store = some out) :
    Moves store c.session? out.store out.state.session? := by
  unfold drop at h
  split at h
  · obtain rfl := Option.some.inj h
    exact .stays _
  · obtain rfl := Option.some.inj h
    exact .stays _
  · -- what is dropped is rolled back if it is a transaction of this layer
    next t =>
    obtain rfl := Option.some.inj h
    exact t.handle.moves_finish .rollback store
  · next t =>
    obtain rfl := Option.some.inj h
    exact t.handle.moves_finish .rollback store
  · next t hown =>
    obtain rfl := Option.some.inj h
    match t with
    | some (.own t) => exact absurd rfl (hown t)
    | some (.foreign _) => exact .stays _
    | none => exact .stays _
  · cases h

end Client

/-- Whatever a client does, its session makes at most one operation. -/
theorem Action.moves {a : Action β} (h : a.run? c store = some out) :
    Moves store c.session? out.store out.state.session? := by
  -- each action by the lemma for it; looking at a client moves nothing
  cases a with
  | operate op => exact Client.moves_operate h
  | access a => exact Client.moves_access h
  | finish ending => exact Client.moves_finish h
  | wrap layer => exact Client.moves_wrap h
  | unwrap => exact Client.moves_unwrap h
  | drop => exact Client.moves_drop h
  | isActive =>
    obtain ⟨b, -, rfl⟩ := Option.map_eq_some_iff.1 h
    exact .stays _
  | inspect =>
    obtain ⟨seen, -, rfl⟩ := Option.map_eq_some_iff.1 h
    exact .stays _

end

end EntityStore
