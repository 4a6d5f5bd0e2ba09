import EntityStore.Proofs.System.Run
import Mathlib.Data.List.Forall2

/-! # Orders of checks do not show

A commit may check what its transaction has read in any order.  If every transaction of a run
is given another order, all calls are answered the same, up to the records that conflicts
name, and the system that the run leaves is the same but for these orders.

* `AnswersMatch`                   answers that differ in the record of a conflict at most
* `Operation.run_withOrder`        one operation of a session, with another order
* `Action.run?_withOrder`          whatever a client does
* `System.call?_withOrder`         every call to a system
* `System.trace_withOrder`         a whole run
* `System.trace_matches`           two runs that differ in their orders -/

namespace EntityStore

/-! ## Answers -/

/-- Two answers that are the same, or conflicts that may name different records. -/
inductive AnswersMatch {β : Type} : Except Error β → Except Error β → Prop where
  | same (answer : Except Error β) : AnswersMatch answer answer
  | conflict {e e' : Error} (h : e.NamesChanged) (h' : e'.NamesChanged) :
    AnswersMatch (.error e) (.error e')

namespace AnswersMatch

variable {β : Type} {a b c : Except Error β}

/-- Matching is symmetric. -/
protected theorem symm (h : AnswersMatch a b) : AnswersMatch b a := by
  cases h with
  | same => exact .same _
  | conflict h h' => exact .conflict h' h

/-- Matching is transitive. -/
protected theorem trans (h : AnswersMatch a b) (h' : AnswersMatch b c) : AnswersMatch a c := by
  cases h with
  | same => exact h'
  | conflict h₁ h₂ =>
    cases h' with
    | same => exact .conflict h₁ h₂
    | conflict _ h₃ => exact .conflict h₁ h₃

end AnswersMatch

/-- Two outcomes whose answers match.  They leave the same store, and what the first one leaves
    of its state becomes that of the second one by `f`. -/
structure Outcome.Matches {σ β : Type} (f : σ → σ) (out out' : Outcome σ β) : Prop where
  result : AnswersMatch out.result out'.result
  store_eq : out'.store = out.store
  state_eq : out'.state = f out.state

namespace Outcome.Matches

variable {σ τ β : Type} {f : σ → σ} {out out' : Outcome σ β}

/-- Outcomes that differ in their states only. -/
theorem of_eq (h : out' = out.mapState f) : out.Matches f out' := by
  subst h
  exact ⟨.same _, rfl, rfl⟩

/-- Outcomes that match do so in a larger state as well. -/
theorem mapState (h : out.Matches f out') {f' : τ → τ} {g g' : σ → τ}
    (hg : ∀ s, g' (f s) = f' (g s)) : (out.mapState g).Matches f' (out'.mapState g') where
  result := h.result
  store_eq := h.store_eq
  state_eq := (congrArg g' h.state_eq).trans (hg out.state)

end Outcome.Matches

/-! ## Sessions -/

/-- A transaction whose commit checks in another order. -/
def Transaction.withOrder (order : CheckOrder) (t : Transaction) : Transaction := { t with order }

/-- A session whose transaction, if it has one, checks in another order. -/
def Session.withOrder (order : CheckOrder) (s : Session) : Session :=
  ⟨s.transaction.map (Transaction.withOrder order)⟩

variable {order : CheckOrder}

namespace Session

variable {α : Type} {s : Session} {store : Store}

/-- The order of its checks does not finish a transaction. -/
theorem active_withOrder (order : CheckOrder) (s : Session) :
    (s.withOrder order).active = s.active.map (Option.map (Transaction.withOrder order)) := by
  obtain ⟨_ | t⟩ := s
  · rfl
  · by_cases ht : t.status = .active
    · rw [active_of_active ht]
      exact active_of_active ht
    · rw [active_of_finished ht]
      exact active_of_finished ht

/-- A session is active in every order. -/
theorem isActive_withOrder (order : CheckOrder) (s : Session) :
    (s.withOrder order).isActive = s.isActive := by
  obtain ⟨_ | t⟩ := s <;> rfl

/-- A load checks nothing, so it does the same in every order. -/
theorem load_withOrder (s : Session) (store : Store) (type : EntityType α) (id : String) :
    (s.withOrder order).load store type id =
      (s.load store type id).mapState (Session.withOrder order) := by
  rw [load, load, active_withOrder]
  -- a finished transaction, no transaction, an open one
  rcases s.active with e | _ | t
  · rfl
  · dsimp only [Except.map, Option.map]
    cases store.read ⟨type.kindName, id⟩ <;> rfl
  · dsimp only [Except.map, Option.map, Transaction.withOrder]
    cases t.writes[(⟨type.kindName, id⟩ : RecordKey)]? with
    | some body => rfl
    | none => cases store.read ⟨type.kindName, id⟩ <;> rfl

/-- A save does the same in every order. -/
theorem save_withOrder (s : Session) (store : Store) (type : EntityType α) (entity : α) :
    (s.withOrder order).save store type entity =
      (s.save store type entity).mapState (Session.withOrder order) := by
  rw [save, save, active_withOrder]
  cases type.encode entity with
  | error cause => rfl
  | ok body =>
    rcases s.active with e | _ | t
    · rfl
    · dsimp only [Except.map, Option.map]
      cases store.write ⟨type.kindName, type.id entity⟩ (some body) <;> rfl
    · -- a save in a transaction looks for the table, and not at the order
      dsimp only [Except.map, Option.map]
      cases store.table type.kindName <;> rfl

/-- A delete does the same in every order. -/
theorem delete_withOrder (s : Session) (store : Store) (type : EntityType α) (id : String) :
    (s.withOrder order).delete store type id =
      (s.delete store type id).mapState (Session.withOrder order) := by
  rw [delete, delete, active_withOrder]
  rcases s.active with e | _ | t
  · rfl
  · dsimp only [Except.map, Option.map]
    cases store.write ⟨type.kindName, id⟩ none <;> rfl
  · dsimp only [Except.map, Option.map, Transaction.withOrder]
    cases t.writes[(⟨type.kindName, id⟩ : RecordKey)]? with
    | some body => rfl
    | none => cases store.read ⟨type.kindName, id⟩ <;> rfl

/-- A query answers the same in every order. -/
theorem query_withOrder (s : Session) (store : Store) (type : EntityType α)
    (start : Option Cursor) :
    (s.withOrder order).query store type start = s.query store type start := by
  -- a query looks at the writes that are held back, and at nothing else
  have hrows (from? : Option String) :
      (s.withOrder order).rowsFrom store type from? = s.rowsFrom store type from? := by
    rw [rowsFrom, rowsFrom, active_withOrder]
    rcases s.active with e | _ | t <;> rfl
  simp only [query, hrows]

/-- A rollback gives up what it would have checked. -/
theorem rollback_withOrder (s : Session) (store : Store) :
    (s.withOrder order).rollback store = (s.rollback store).mapState (Session.withOrder order) := by
  rw [rollback, rollback, active_withOrder]
  rcases s.active with e | _ | t <;> rfl

/-- The order decides which record a conflict names, and nothing else. -/
theorem commit_withOrder (hwithin : s.Within store) :
    (s.commit store).Matches (Session.withOrder order) ((s.withOrder order).commit store) := by
  obtain ⟨_ | t⟩ := s
  · exact .of_eq rfl
  by_cases ht : t.status = .active
  case neg =>
    -- a transaction that has finished refuses, whatever its order
    refine .of_eq ?_
    have ht' : (t.withOrder order).status ≠ .active := ht
    simp only [commit, active_of_finished ht, withOrder, Option.map_some, active_of_finished ht']
    rfl
  -- an open transaction: the two commits check the same versions, in two orders
  have ht' : (t.withOrder order).status = .active := ht
  have hw := hwithin t rfl
  simp only [commit, active_of_active ht, withOrder, Option.map_some, active_of_active ht']
  rcases Store.commit_congr hw.reads t.order order hw.writes with h | ⟨e, e', he, he', h, h'⟩
  · -- no conflict, or one that names the same record
    dsimp only [Transaction.withOrder]
    rw [h]
    rcases store.commit order t.reads t.writes with ⟨_ | _, _⟩ <;> exact .of_eq rfl
  · -- a conflict in both orders; the two may name different records
    dsimp only [Transaction.withOrder]
    rw [h, h']
    exact ⟨.conflict he he', rfl, rfl⟩

end Session

/-- One operation of a session whose transaction checks in another order. -/
theorem Operation.run_withOrder {β : Type} (op : Operation β) {s : Session} {store : Store}
    (hwithin : s.Within store) :
    (op.run s store).Matches (Session.withOrder order) (op.run (s.withOrder order) store) := by
  cases op with
  | load type id => exact .of_eq (s.load_withOrder store type id)
  | save type entity => exact .of_eq (s.save_withOrder store type entity)
  | delete type id => exact .of_eq (s.delete_withOrder store type id)
  | query type start =>
    rw [run, run, Session.query_withOrder]
    exact .of_eq rfl
  | finish ending =>
    cases ending with
    -- only a commit visits the reads, so only it may name another record
    | commit => exact Session.commit_withOrder hwithin
    | rollback => exact .of_eq (s.rollback_withOrder store)

/-- An access commits nothing, so its answer is the very same. -/
theorem Access.on_withOrder {β : Type} (a : Access β) (s : Session) (store : Store) :
    a.on (s.withOrder order) store = (a.on s store).mapState (Session.withOrder order) := by
  cases a with
  | get c id =>
    rw [on, Collection.getOn, Session.load_withOrder]
    rfl
  | put c entity => exact s.save_withOrder store c.type entity
  | delete c id => exact s.delete_withOrder store c.type id
  | find c request pred =>
    rw [on, Collection.findOn, Session.query_withOrder]
    rfl

/-! ## Clients -/

/-- A handle on a session whose transaction checks in another order. -/
def Handle.withOrder (order : CheckOrder) (h : Handle) : Handle :=
  h.withSession (h.session.withOrder order)

/-- A transaction of a handle that checks in another order. -/
def TransactionalHandle.withOrder (order : CheckOrder) (t : TransactionalHandle) :
    TransactionalHandle :=
  t.withSession (t.session.withOrder order)

/-- A transaction of a caller; one of another layer checks nothing here. -/
def CallerTransaction.withOrder (order : CheckOrder) : CallerTransaction → CallerTransaction
  | .own t => .own (t.withOrder order)
  | .foreign typeName => .foreign typeName

/-- A client whose transaction, if it has one, checks in another order. -/
def Client.withOrder (order : CheckOrder) : Client → Client
  | .session s => .session (s.withOrder order)
  | .handle h => .handle (h.withOrder order)
  | .transaction t => .transaction (t.withOrder order)
  | .caller t => .caller (t.map (CallerTransaction.withOrder order))
  | .dropped s => .dropped (s.map (Session.withOrder order))

variable {store : Store}

/-- A handle passes an ending on, or not, whichever the order. -/
theorem Handle.finish_withOrder (order : CheckOrder) (h : Handle) (ending : Ending)
    (hwithin : h.session.Within store) :
    (h.finish ending store).Matches (Handle.withOrder order)
      ((h.withOrder order).finish ending store) := by
  have hactive : (h.withOrder order).session.isActive = h.session.isActive :=
    h.session.isActive_withOrder order
  have hsession : (h.session.finish ending store).Matches (Session.withOrder order)
      ((h.withOrder order).session.finish ending store) :=
    (Operation.finish ending).run_withOrder hwithin
  have htransactional : (h.withOrder order).transactional = h.transactional := rfl
  -- the handle looks at its flag and at whether the session is active, which do not change
  rw [finish, finish, hactive, htransactional]
  split
  · split
    · exact hsession.mapState fun s => rfl
    · exact .of_eq rfl
  · exact .of_eq rfl

/-- The handle of a transaction ends it in every order. -/
theorem TransactionalHandle.finish_withOrder (order : CheckOrder) (t : TransactionalHandle)
    (ending : Ending) (hwithin : t.session.Within store) :
    (t.finish ending store).Matches (TransactionalHandle.withOrder order)
      ((t.withOrder order).finish ending store) := by
  obtain ⟨h, htransactional⟩ := t
  have hfinish := h.finish_withOrder order ending hwithin
  refine ⟨hfinish.result, hfinish.store_eq, ?_⟩
  simp only [finish, withOrder, withSession, TransactionalHandle.mk.injEq]
  exact hfinish.state_eq

/-- What a caller holds ends its transaction in every order. -/
theorem CallerTransaction.finish_withOrder (order : CheckOrder) (t : CallerTransaction)
    (ending : Ending) (hwithin : ∀ t', t = .own t' → t'.session.Within store) :
    (t.finish ending store).Matches (CallerTransaction.withOrder order)
      ((t.withOrder order).finish ending store) := by
  cases t with
  | own t => exact (t.finish_withOrder order ending (hwithin t rfl)).mapState fun t => rfl
  | foreign typeName => exact .of_eq rfl

namespace Client

variable {β : Type} {c : Client}

/-- A client may make the same operations in every order. -/
theorem operate_withOrder (op : Operation β) (hwithin : ∀ s, c.session? = some s → s.Within store) :
    Option.Rel (Outcome.Matches (Client.withOrder order)) (c.operate op store)
      ((c.withOrder order).operate op store) := by
  match c with
  | .session s =>
    exact .some ((op.run_withOrder (hwithin s rfl)).mapState fun s => rfl)
  | .handle h =>
    exact .some ((op.run_withOrder (hwithin h.session rfl)).mapState fun s => rfl)
  | .transaction t =>
    exact .some ((op.run_withOrder (hwithin t.session rfl)).mapState fun s => rfl)
  | .caller (some (.own t)) =>
    exact .some ((op.run_withOrder (hwithin t.session rfl)).mapState fun s => rfl)
  -- the others make no operations, in no order
  | .caller (some (.foreign _)) | .caller none | .dropped _ => exact .none

/-- A client has the same access in every order. -/
theorem access_withOrder (a : Access β) (c : Client) :
    Option.Rel (Outcome.Matches (Client.withOrder order)) (c.access a store)
      ((c.withOrder order).access a store) := by
  match c with
  | .caller (some (.own t)) =>
    refine .some (.of_eq ?_)
    have hon : a.on (t.withOrder order).session store =
        (a.on t.session store).mapState (Session.withOrder order) :=
      a.on_withOrder t.session store
    rw [a.inside_eq, a.inside_eq]
    simp only [CallerTransaction.run, CallerTransaction.expect, Option.map_some,
      CallerTransaction.withOrder]
    rw [hon]
    rfl
  -- without a transaction of this layer the access is refused
  | .caller (some (.foreign _)) | .caller none =>
    refine .some (.of_eq ?_)
    rw [a.inside_eq, a.inside_eq]
    rfl
  | .session _ | .handle _ | .transaction _ | .dropped _ => exact .none

/-- An ending of a client does the same up to the record that a conflict names. -/
theorem finish_withOrder (ending : Ending)
    (hwithin : ∀ s, c.session? = some s → s.Within store) :
    Option.Rel (Outcome.Matches (Client.withOrder order)) (c.finish ending store)
      ((c.withOrder order).finish ending store) := by
  match c with
  | .handle h =>
    exact .some ((h.finish_withOrder order ending (hwithin _ rfl)).mapState fun h => rfl)
  | .transaction t =>
    exact .some ((t.finish_withOrder order ending (hwithin _ rfl)).mapState fun t => rfl)
  | .caller (some t) =>
    refine .some ((t.finish_withOrder order ending ?_).mapState fun t => rfl)
    rintro t' rfl
    exact hwithin _ rfl
  -- the others cannot be ended
  | .caller none | .session _ | .dropped _ => exact .none

/-- A wrapping asks whether there is a transaction, but not for its order. -/
theorem wrap_withOrder (layer : Layer) (c : Client) :
    Option.Rel (Outcome.Matches (Client.withOrder order)) (c.wrap layer store)
      ((c.withOrder order).wrap layer store) := by
  match layer, c with
  | .handle transactional, .session s => exact .some (.of_eq rfl)
  | .transaction, .handle ⟨s, transactional⟩ =>
    cases transactional <;> exact .some (.of_eq rfl)
  | .caller, .transaction t => exact .some (.of_eq rfl)
  | .handle _, .handle _ | .handle _, .transaction _ | .handle _, .caller _
  | .handle _, .dropped _ => exact .none
  | .transaction, .session _ | .transaction, .transaction _ | .transaction, .caller _
  | .transaction, .dropped _ => exact .none
  | .caller, .session _ | .caller, .handle _ | .caller, .caller _ | .caller, .dropped _ =>
    exact .none

/-- Taking a wrapping off does not show the order. -/
theorem unwrap_withOrder (c : Client) :
    Option.Rel (Outcome.Matches (Client.withOrder order)) (c.unwrap store)
      ((c.withOrder order).unwrap store) := by
  match c with
  | .handle h => exact .some (.of_eq rfl)
  | .caller (some (.own t)) => exact .some (.of_eq rfl)
  | .caller (some (.foreign _)) | .caller none | .session _ | .transaction _ | .dropped _ =>
    exact .none

/-- A transaction that is given up is rolled back, and a rollback checks nothing. -/
theorem drop_withOrder (hwithin : ∀ s, c.session? = some s → s.Within store) :
    Option.Rel (Outcome.Matches (Client.withOrder order)) (c.drop store)
      ((c.withOrder order).drop store) := by
  -- a transaction is rolled back, which does not look at the order
  have hdrop (t : TransactionalHandle) (ht : t.session.Within store) :
      (⟨.ok (), (t.drop store).store, .dropped (some (t.drop store).state)⟩ :
          Outcome Client Unit).Matches (Client.withOrder order)
        ⟨.ok (), ((t.withOrder order).drop store).store,
          .dropped (some ((t.withOrder order).drop store).state)⟩ := by
    have hfinish := t.finish_withOrder order .rollback ht
    refine ⟨.same _, hfinish.store_eq, ?_⟩
    simp only [TransactionalHandle.drop, Outcome.mapState, hfinish.state_eq]
    rfl
  cases c with
  | session s => exact .some (.of_eq rfl)
  | handle h => exact .some (.of_eq rfl)
  | transaction t => exact .some (hdrop t (hwithin _ rfl))
  | caller transaction =>
    rcases transaction with _ | t | typeName
    · exact .some (.of_eq rfl)
    · exact .some (hdrop t (hwithin _ rfl))
    · exact .some (.of_eq rfl)
  | dropped s => exact .none

/-- Whether a client is in an open transaction does not depend on the order. -/
theorem isActive_withOrder (order : CheckOrder) (c : Client) :
    (c.withOrder order).isActive = c.isActive := by
  match c with
  | .session s => exact congrArg some (s.isActive_withOrder order)
  | .handle h =>
    exact congrArg some (congrArg (h.transactional && ·) (h.session.isActive_withOrder order))
  | .transaction t | .caller (some (.own t)) =>
    exact congrArg some
      (congrArg (t.handle.transactional && ·) (t.session.isActive_withOrder order))
  | .caller (some (.foreign _)) | .caller none | .dropped _ => rfl

/-- What a client shows of its transaction is not the order. -/
theorem inspect_withOrder (order : CheckOrder) (c : Client) :
    (c.withOrder order).inspect = c.inspect := by
  -- the id, the status and the writes are kept
  have hseen (s : Session) : ((s.withOrder order).transactionId, (s.withOrder order).status,
      (s.withOrder order).pendingWrites) = (s.transactionId, s.status, s.pendingWrites) := by
    obtain ⟨_ | t⟩ := s <;> rfl
  match c with
  | .session s => exact congrArg some (hseen s)
  | .handle h => exact congrArg some (hseen h.session)
  | .transaction t | .caller (some (.own t)) => exact congrArg some (hseen t.session)
  | .caller (some (.foreign _)) | .caller none | .dropped _ => rfl

end Client

/-- Whatever a client does, the order of its checks shows in a conflict at most. -/
theorem Action.run?_withOrder {β : Type} (order : CheckOrder) (a : Action β) {c : Client}
    (hwithin : ∀ s, c.session? = some s → s.Within store) :
    Option.Rel (Outcome.Matches (Client.withOrder order)) (a.run? c store)
      (a.run? (c.withOrder order) store) := by
  cases a with
  | operate op => exact Client.operate_withOrder op hwithin
  | access a => exact Client.access_withOrder a c
  | finish ending => exact Client.finish_withOrder ending hwithin
  | wrap layer => exact Client.wrap_withOrder layer c
  | unwrap => exact Client.unwrap_withOrder c
  | drop => exact Client.drop_withOrder hwithin
  -- what is asked of a client does not depend on the order
  | isActive =>
    rw [run?, run?, Client.isActive_withOrder]
    cases c.isActive with
    | none => exact .none
    | some b => exact .some (.of_eq rfl)
  | inspect =>
    rw [run?, run?, Client.inspect_withOrder]
    cases c.inspect with
    | none => exact .none
    | some seen => exact .some (.of_eq rfl)

/-! ## Systems -/

/-- A client that comes into being with another order. -/
def Origin.withOrder (order : CheckOrder) : Origin → Origin
  | .begun _ => .begun order
  | origin => origin

/-- A call; only the one that begins a transaction brings an order. -/
def Call.withOrder (order : CheckOrder) {β : Type} : Call β → Call β
  | .enter n origin => .enter n (origin.withOrder order)
  | c => c

/-- A request with another order. -/
def Request.withOrder (order : CheckOrder) (r : Request) : Request := ⟨r.call.withOrder order⟩

/-- A system in which the transactions of all clients check in the same order. -/
def System.withOrder (order : CheckOrder) (w : System) : System :=
  { w with clients := fun n => (w.clients n).map (Client.withOrder order) }

/-- Two replies to calls that differ in an order at most, with answers that match. -/
inductive Reply.Matches : Reply → Reply → Prop where
  | intro {β : Type} {c c' : Call β} {a a' : Except Error β}
    (call_eq : c.withOrder .ascending = c'.withOrder .ascending) (answers : AnswersMatch a a') :
    Reply.Matches ⟨c, a⟩ ⟨c', a'⟩

namespace Call

variable {β : Type}

/-- Of two orders given to a call the later one stays. -/
@[simp] theorem withOrder_withOrder (order order' : CheckOrder) (c : Call β) :
    (c.withOrder order).withOrder order' = c.withOrder order' := by
  cases c with
  | enter n origin => cases origin <;> rfl
  | _ => rfl

/-- The order does not change whose call it is. -/
@[simp] theorem client?_withOrder (order : CheckOrder) (c : Call β) :
    (c.withOrder order).client? = c.client? := by
  cases c <;> rfl

/-- The order does not change who acts. -/
@[simp] theorem actor?_withOrder (order : CheckOrder) (c : Call β) :
    (c.withOrder order).actor? = c.actor? := by
  cases c <;> rfl

end Call

namespace Reply.Matches

variable {a b c : Reply}

/-- Matching is symmetric. -/
protected theorem symm (h : a.Matches b) : b.Matches a := by
  obtain ⟨hcall, hanswers⟩ := h
  exact .intro hcall.symm hanswers.symm

/-- Matching is transitive. -/
protected theorem trans (h : a.Matches b) (h' : b.Matches c) : a.Matches c := by
  obtain ⟨hcall, hanswers⟩ := h
  obtain ⟨hcall', hanswers'⟩ := h'
  exact .intro (hcall.trans hcall') (hanswers.trans hanswers')

/-- Replies that match are to the same client. -/
theorem client?_eq (h : a.Matches b) : a.call.client? = b.call.client? := by
  obtain ⟨hcall, -⟩ := h
  rw [← Call.client?_withOrder .ascending, hcall, Call.client?_withOrder]

/-- Two lists of replies match if both match a third one. -/
theorem forall₂_of_common {as bs cs : List Reply} (h : List.Forall₂ Reply.Matches as cs)
    (h' : List.Forall₂ Reply.Matches bs cs) : List.Forall₂ Reply.Matches as bs := by
  -- along the two lists, against the third one
  induction h generalizing bs with
  | nil =>
    cases h'
    exact .nil
  | cons hac _ ih =>
    cases h' with
    | cons hbc hrest => exact .cons (hac.trans hbc.symm) (ih hrest)

end Reply.Matches

namespace System

variable {w : System}

/-- The clients of a system, with another order. -/
theorem clients_withOrder (order : CheckOrder) (w : System) (n : Nat) :
    (w.withOrder order).clients n = (w.clients n).map (Client.withOrder order) :=
  rfl

/-- The store knows nothing of orders. -/
theorem store_withOrder (order : CheckOrder) (w : System) : (w.withOrder order).store = w.store :=
  rfl

/-- A client that is moved on keeps the order of its system. -/
theorem withOrder_put (w : System) (n : Nat) (c : Client) (store : Store) :
    (w.put n c store).withOrder order = (w.withOrder order).put n (c.withOrder order) store := by
  simp only [withOrder, put, System.mk.injEq, true_and]
  funext m
  split <;> rfl

/-- Every call finds the system the same but for a conflict, and leaves the same system. -/
theorem call?_withOrder (order : CheckOrder) (hw : w.Within) {β : Type} (c : Call β) :
    Option.Rel (fun out out' => AnswersMatch out.1 out'.1 ∧ out'.2 = out.2.withOrder order)
      (w.call? c) ((w.withOrder order).call? (c.withOrder order)) := by
  -- the order stands in the clients only, so the other calls are the same
  cases c with
  | store c => exact .some ⟨.same _, rfl⟩
  | registry n c => exact .some ⟨.same _, rfl⟩
  | access a => exact .some ⟨.same _, rfl⟩
  | findAll c => exact .some ⟨.same _, rfl⟩
  | enter n origin =>
    simp only [Call.withOrder, call?, clients_withOrder]
    cases w.clients n with
    | some c => exact .none
    | none =>
      refine .some ⟨.same _, ?_⟩
      rw [withOrder_put]
      cases origin <;> rfl
  | act n a =>
    have hwithin := hw n
    simp only [Call.withOrder, call?, clients_withOrder, store_withOrder]
    cases hc : w.clients n with
    | none => exact .none
    | some c =>
      rw [session?_eq hc] at hwithin
      -- the client does the same, and leaves a client with its own order
      have hrun := a.run?_withOrder order hwithin
      simp only [Option.map_some]
      generalize a.run? c w.store = out, a.run? (c.withOrder order) w.store = out' at hrun
      cases hrun with
      | none => exact .none
      | some h =>
        refine .some ⟨h.result, ?_⟩
        rw [withOrder_put, ← h.state_eq, ← h.store_eq]

/-- A step is answered the same up to a conflict, and leads to the same system up to orders. -/
theorem step_withOrder (order : CheckOrder) (hw : w.Within) (r : Request) :
    Option.Rel Reply.Matches (w.reply? r)
        ((w.withOrder order).reply? (r.withOrder order)) ∧
      (w.withOrder order).step (r.withOrder order) = (w.step r).withOrder order := by
  have hcall := call?_withOrder order hw r.call
  rw [reply?, reply?, step, step, Request.withOrder]
  generalize w.call? r.call = out, (w.withOrder order).call? (r.call.withOrder order) = out'
    at hcall
  cases hcall with
  | none => exact ⟨.none, rfl⟩
  | some h => exact ⟨.some (.intro (Call.withOrder_withOrder ..).symm h.1), h.2⟩

/-- A run in which all transactions check in another order. -/
theorem trace_withOrder (order : CheckOrder) (hw : w.Within) (rs : List Request) :
    List.Forall₂ Reply.Matches (w.trace rs)
        ((w.withOrder order).trace (rs.map (Request.withOrder order))) ∧
      (w.withOrder order).run (rs.map (Request.withOrder order)) =
        (w.run rs).withOrder order := by
  -- along the calls; the system behind each of them is the same up to orders
  induction rs generalizing w with
  | nil => exact ⟨.nil, rfl⟩
  | cons r rs ih =>
    obtain ⟨hreply, hstep⟩ := step_withOrder order hw r
    obtain ⟨htrace, hrun⟩ := ih (within_step hw r)
    rw [List.map_cons, run_cons, run_cons, trace, trace, hstep]
    refine ⟨?_, hrun⟩
    generalize w.reply? r = reply, (w.withOrder order).reply? (r.withOrder order) = reply'
      at hreply
    cases hreply with
    | none => exact htrace
    | some h => exact .cons h htrace

/-- Two runs that differ in the orders of their transactions give answers that match, and end
    with the same system, up to these orders. -/
theorem trace_matches (hw : w.Within) {as bs : List Request}
    (hsame : as.map (Request.withOrder .ascending) = bs.map (Request.withOrder .ascending)) :
    List.Forall₂ Reply.Matches (w.trace as) (w.trace bs) ∧
      (w.run as).withOrder .ascending = (w.run bs).withOrder .ascending := by
  -- both are compared with the run in which all orders are ascending
  obtain ⟨hatrace, harun⟩ := trace_withOrder .ascending hw as
  obtain ⟨hbtrace, hbrun⟩ := trace_withOrder .ascending hw bs
  rw [hsame] at hatrace harun
  exact ⟨Reply.Matches.forall₂_of_common hatrace hbtrace, harun.symm.trans hbrun⟩

end System

end EntityStore
