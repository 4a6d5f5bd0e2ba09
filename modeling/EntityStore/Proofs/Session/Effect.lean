import EntityStore.Proofs.Session.Operation

/-! # Effects on the store

What an operation does to the store is told by the set of writes that it makes there, and by
the version that the store has behind it.  All three kinds of session are covered: plain
ones, open transactions, and transactions that have finished.

* `Operation.writes`       what an operation writes to the store
* `Store.Applied`          a store, and the store behind a set of writes
* `Operation.run_applied`  every operation applies the writes that it makes
* `Operation.state_cases`  what an operation makes of its session
* `Operation.within_run`   nothing outside of registered kinds is remembered -/

namespace EntityStore

/-- What an operation writes to the store.  A plain session writes at once, a transaction
    writes all that it has held back when it commits, and an operation that fails writes
    nothing. -/
def Operation.writes {β : Type} (op : Operation β) (s : Session) (store : Store) : WriteSet :=
  match (op.run s store).result, s.transaction with
  | .error _, _ => ∅
  | .ok _, none =>
    match op.change? with
    | some (key, body) => (∅ : WriteSet).insert key body
    | none => ∅
  | .ok _, some t => if op.ending? = some .commit then t.writes else ∅

/-- Everything that a session remembers lies under registered kinds. -/
def Session.Within (s : Session) (store : Store) : Prop :=
  ∀ t, s.transaction = some t → t.Within store

/-! ## Applied writes -/

namespace Store

variable {store store' : Store}

/-- The second store is the first one with some writes applied.  Bodies go in under a version
    that is new. -/
structure Applied (store store' : Store) (writes : WriteSet) : Prop where
  kind?_eq : ∀ name, store'.kind? name = store.kind? name
  record?_eq : ∀ key : RecordKey, store'.record? key =
    match writes[key]? with
    | none => store.record? key
    | some body => body.map (⟨store'.version, ·⟩)
  version_eq : store'.version = store.version ∨ store'.version = store.version + 1
  version_of_body : ∀ (key : RecordKey) (body : Json), writes[key]? = some (some body) →
    store'.version = store.version + 1

/-- Applying writes leaves the registered kinds as they are. -/
theorem Applied.isRegistered_eq {writes : WriteSet} (h : store.Applied store' writes)
    (name : String) : store'.isRegistered name = store.isRegistered name := by
  rw [Store.isRegistered_eq, Store.isRegistered_eq, h.kind?_eq]

/-- No writes leave a store as it is. -/
theorem applied_empty (store : Store) : store.Applied store ∅ where
  kind?_eq _ := rfl
  record?_eq key := by rw [Std.ExtTreeMap.getElem?_empty]
  version_eq := .inl rfl
  version_of_body key body h := by
    rw [Std.ExtTreeMap.getElem?_empty] at h
    cases h

/-- Taking a version changes no record. -/
@[simp] theorem record?_nextVersion (store : Store) (key : RecordKey) :
    store.nextVersion.record? key = store.record? key := rfl

/-- Taking a version registers nothing. -/
@[simp] theorem kind?_nextVersion (store : Store) (name : String) :
    store.nextVersion.kind? name = store.kind? name := rfl

/-- A single write names one record. -/
private theorem getElem?_single (key k : RecordKey) (body : Option Json) :
    ((∅ : WriteSet).insert key body)[k]? = if key = k then some body else none := by
  rw [Std.ExtTreeMap.getElem?_insert, Std.ExtTreeMap.getElem?_empty]
  simp only [Std.LawfulEqOrd.compare_eq_iff_eq]

/-- A body that is put takes a new version. -/
theorem applied_put {key : RecordKey} (h : store.isRegistered key.kind = true) (body : Json) :
    store.Applied (store.nextVersion.set key (some body))
      ((∅ : WriteSet).insert key (some body)) where
  kind?_eq name := by rw [kind?_set, kind?_nextVersion]
  record?_eq k := by
    -- the kind is registered under the next version as well
    have hnext : store.nextVersion.isRegistered key.kind = true := h
    rw [record?_set hnext, version_set, getElem?_single]
    by_cases hkey : key = k
    · simp only [hkey, if_true]
    · simp only [hkey, Ne.symm hkey, if_false, record?_nextVersion]
  version_eq := .inr (version_set _ _ _)
  version_of_body _ _ _ := version_set _ _ _

/-- A record that is taken away takes no version. -/
theorem applied_delete {key : RecordKey} (h : store.isRegistered key.kind = true) :
    store.Applied (store.set key none) ((∅ : WriteSet).insert key none) where
  kind?_eq name := kind?_set _ _ _ name
  record?_eq k := by
    rw [record?_set h, getElem?_single]
    by_cases hkey : key = k
    · simp only [hkey, if_true, Option.map_none]
    · simp only [hkey, Ne.symm hkey, if_false]
  version_eq := .inl (version_set _ _ _)
  version_of_body k body hk := by
    -- the one write has no body
    rw [getElem?_single] at hk
    split at hk <;> cases hk

/-- Several writes go in under one new version. -/
theorem applied_putAll {writes : WriteSet}
    (h : ∀ k, k ∈ writes → store.isRegistered k.kind = true) :
    store.Applied (store.nextVersion.putAll writes.toList) writes where
  kind?_eq name := by rw [kind?_putAll, kind?_nextVersion]
  record?_eq k := by
    have hnext : ∀ k, k ∈ writes → store.nextVersion.isRegistered k.kind = true := h
    rw [record?_putAll writes hnext, version_putAll]
    rfl
  version_eq := .inr (version_putAll _ _)
  version_of_body _ _ _ := version_putAll _ _

end Store

/-! ## Ending a transaction -/

namespace Session

variable {t : Transaction} {store : Store}

/-- An open transaction whose records have not changed is committed. -/
theorem commit_of_fresh (ht : t.status = .active) (hwithin : t.Within store)
    (hfresh : ∀ (k : RecordKey) (v : UInt64), t.reads[k]? = some v →
      Record.seenVersion (store.record? k) = v) :
    (Session.mk (some t)).commit store =
      ⟨.ok (), if t.writes.isEmpty then store else store.nextVersion.putAll t.writes.toList,
        ⟨some (t.finish .committed)⟩⟩ := by
  rw [commit, active_of_active ht]
  simp only [Store.commit_of_fresh hwithin.reads t.order hwithin.writes hfresh]

/-- An open transaction is rolled back if one of its records has changed. -/
theorem commit_of_stale (ht : t.status = .active) (hwithin : t.Within store) {key : RecordKey}
    {seen : UInt64} (hkey : t.reads[key]? = some seen)
    (hstale : Record.seenVersion (store.record? key) ≠ seen) :
    ∃ reason, (Session.mk (some t)).commit store =
      ⟨.error (.transactionConflict reason), store, ⟨some (t.finish .rolledBack)⟩⟩ := by
  obtain ⟨reason, hreason⟩ : ∃ reason, store.commit t.order t.reads t.writes =
      (.error (.transactionConflict reason), store) :=
    Store.commit_of_stale hwithin.reads t.order hwithin.writes hkey hstale
  refine ⟨reason, ?_⟩
  rw [commit, active_of_active ht]
  simp only [hreason]

/-- Only the commit of an open transaction succeeds. -/
theorem active_of_commit {u : Unit} (h : ((Session.mk (some t)).commit store).result = .ok u) :
    t.status = .active := by
  by_cases ht : t.status = .active
  · exact ht
  · rw [commit, active_of_finished ht] at h
    cases h

/-- The two outcomes of a commit of an open transaction. -/
theorem commit_cases (ht : t.status = .active) (hwithin : t.Within store) :
    (∃ reason, (Session.mk (some t)).commit store =
        ⟨.error (.transactionConflict reason), store, ⟨some (t.finish .rolledBack)⟩⟩) ∨
      (Session.mk (some t)).commit store =
        ⟨.ok (), if t.writes.isEmpty then store else store.nextVersion.putAll t.writes.toList,
          ⟨some (t.finish .committed)⟩⟩ ∧
      ∀ (k : RecordKey) (v : UInt64), t.reads[k]? = some v →
        Record.seenVersion (store.record? k) = v := by
  -- the check passes, or some record that was seen has changed
  by_cases hfresh : ∀ (k : RecordKey) (v : UInt64), t.reads[k]? = some v →
      Record.seenVersion (store.record? k) = v
  · exact .inr ⟨commit_of_fresh ht hwithin hfresh, hfresh⟩
  · obtain ⟨key, h⟩ := Classical.not_forall.1 hfresh
    obtain ⟨seen, h⟩ := Classical.not_forall.1 h
    obtain ⟨hkey, hstale⟩ := Classical.not_imp.1 h
    exact .inl (commit_of_stale ht hwithin hkey hstale)

/-- A rollback gives up everything that is held back. -/
theorem rollback_of_active (ht : t.status = .active) (store : Store) :
    (Session.mk (some t)).rollback store = ⟨.ok (), store, ⟨some (t.finish .rolledBack)⟩⟩ := by
  rw [rollback, active_of_active ht]

end Session

/-! ## Every operation -/

namespace Operation

variable {β : Type} {store : Store}

/-- A plain session stays as it is, and writes at once. -/
theorem run_plain (op : Operation β) (store : Store) :
    (op.run .plain store).state = .plain ∧
      store.Applied (op.run .plain store).store (op.writes .plain store) := by
  -- loads and queries write nothing, and saves and deletes write at once
  cases op with
  | load type id =>
    rw [writes, run, Session.load_plain]
    refine ⟨rfl, ?_⟩
    show store.Applied store _
    split <;> exact store.applied_empty
  | save type entity =>
    rw [writes, run, Session.save_plain, change?]
    cases type.encode entity with
    | error cause => exact ⟨rfl, store.applied_empty⟩
    | ok body =>
      cases hreg : store.isRegistered type.kindName with
      -- a kind that is not registered is refused before anything is written
      | false => exact ⟨rfl, store.applied_empty⟩
      | true => exact ⟨rfl, Store.applied_put hreg body⟩
  | delete type id =>
    rw [writes, run, Session.delete_plain, change?]
    cases hreg : store.isRegistered type.kindName with
    | false => exact ⟨rfl, store.applied_empty⟩
    | true => exact ⟨rfl, Store.applied_delete hreg⟩
  | query type start =>
    rw [writes, run]
    refine ⟨rfl, ?_⟩
    show store.Applied store _
    split <;> exact store.applied_empty
  | finish ending => cases ending <;> exact ⟨rfl, store.applied_empty⟩

/-- A transaction that has finished stays as it is, and writes nothing. -/
theorem run_finished (op : Operation β) {t : Transaction} (ht : t.status ≠ .active)
    (store : Store) :
    (op.run ⟨some t⟩ store).store = store ∧ (op.run ⟨some t⟩ store).state = ⟨some t⟩ ∧
      op.writes ⟨some t⟩ store = ∅ := by
  have hactive := Session.active_of_finished ht
  -- everything is refused but a query at the end position, which reads nothing
  cases op with
  | load type id => simp [writes, run, Session.load, hactive]
  | save type entity =>
    cases h : type.encode entity <;> simp [writes, run, Session.save, h, hactive]
  | delete type id => simp [writes, run, Session.delete, hactive]
  | query type start =>
    rw [writes]
    refine ⟨rfl, rfl, ?_⟩
    split <;> rfl
  | finish ending =>
    cases ending <;>
      simp [writes, run, Session.finish, Session.commit, Session.rollback, hactive]

/-- An open transaction holds its writes back unless it ends. -/
theorem writes_active (op : Operation β) (hop : op.ending? = none) (t : Transaction)
    (store : Store) : op.writes ⟨some t⟩ store = ∅ := by
  unfold writes
  split
  · rfl
  · next h => cases h
  · simp only [hop, reduceCtorEq, if_false]

/-- The end of a transaction makes it forget all. -/
theorem run_finish {t : Transaction} (ending : Ending) (ht : t.status = .active)
    (hwithin : t.Within store) :
    ∃ status, status ≠ TransactionStatus.active ∧
      ((finish ending).run ⟨some t⟩ store).state = ⟨some (t.finish status)⟩ := by
  cases ending with
  | rollback =>
    refine ⟨.rolledBack, by decide, ?_⟩
    rw [run, Session.finish, Session.rollback_of_active ht]
  | commit =>
    -- a commit that is refused rolls the transaction back
    rcases Session.commit_cases ht hwithin with ⟨reason, h⟩ | ⟨h, -⟩
    · exact ⟨.rolledBack, by decide, by rw [run, Session.finish, h]⟩
    · exact ⟨.committed, by decide, by rw [run, Session.finish, h]⟩

/-- Every operation applies the writes that it makes. -/
theorem run_applied (op : Operation β) (s : Session) (hwithin : s.Within store) :
    store.Applied (op.run s store).store (op.writes s store) := by
  obtain ⟨transaction⟩ := s
  cases transaction with
  | none => exact (run_plain op store).2
  | some t =>
    by_cases ht : t.status = .active
    case neg =>
      -- a transaction that has finished is refused
      obtain ⟨hstore, -, hwrites⟩ := run_finished op ht store
      rw [hstore, hwrites]
      exact store.applied_empty
    have hw : t.Within store := hwithin t rfl
    cases hending : op.ending? with
    | none =>
      -- until its end a transaction holds everything back
      rw [(run_active op hending ht hw).1, writes_active op hending]
      exact store.applied_empty
    | some ending =>
      cases op with
      | finish ending =>
        cases ending with
        | rollback =>
          simp only [writes, run, Session.finish, Session.rollback_of_active ht, ending?]
          exact store.applied_empty
        | commit =>
          rcases Session.commit_cases ht hw with ⟨reason, h⟩ | ⟨h, -⟩
          · simp only [writes, run, Session.finish, h]
            exact store.applied_empty
          · -- a commit without writes does not take a version
            simp only [writes, run, Session.finish, h, ending?, if_true]
            cases hempty : t.writes.isEmpty with
            | false => exact Store.applied_putAll hw.writes
            | true =>
              rw [Std.ExtTreeMap.isEmpty_iff.1 hempty]
              exact store.applied_empty
      | _ => cases hending

/-- What an operation makes of its session: a plain one and a transaction that has finished
    stay as they are, and an open transaction moves on or finishes. -/
theorem state_cases (op : Operation β) {s : Session} (hwithin : s.Within store) :
    (s = .plain ∧ (op.run s store).state = .plain) ∨
      (∃ t, s = ⟨some t⟩ ∧ t.status ≠ .active ∧ (op.run s store).state = ⟨some t⟩) ∨
      (∃ t, s = ⟨some t⟩ ∧ t.status = .active ∧ op.ending? = none ∧
        (op.run s store).state = ⟨some (op.advance t store)⟩) ∨
      ∃ t status, s = ⟨some t⟩ ∧ t.status = .active ∧ status ≠ .active ∧
        (op.run s store).state = ⟨some (t.finish status)⟩ := by
  obtain ⟨transaction⟩ := s
  cases transaction with
  -- a plain session stays one
  | none => exact .inl ⟨rfl, (run_plain op store).1⟩
  | some t =>
    -- a transaction that has finished, then the operations of an open one, then its endings
    by_cases ht : t.status = .active
    case neg => exact .inr (.inl ⟨t, rfl, ht, (run_finished op ht store).2.1⟩)
    cases hending : op.ending? with
    | none =>
      have hstate := (run_active op hending ht (hwithin t rfl)).2
      exact .inr (.inr (.inl ⟨t, rfl, ht, rfl, hstate⟩))
    | some ending =>
      cases op with
      | finish ending =>
        obtain ⟨status, hstatus, hstate⟩ := run_finish ending ht (hwithin t rfl)
        exact .inr (.inr (.inr ⟨t, status, rfl, ht, hstatus, hstate⟩))
      | _ => cases hending

/-- An operation keeps what its session remembers under registered kinds. -/
theorem within_run (op : Operation β) (s : Session) (hwithin : s.Within store) :
    (op.run s store).state.Within (op.run s store).store := by
  have hkinds : ∀ name, store.isRegistered name = true →
      (op.run s store).store.isRegistered name = true := fun name h =>
    ((op.run_applied s hwithin).isRegistered_eq name).trans h
  rcases op.state_cases hwithin with
    ⟨-, hstate⟩ | ⟨t, rfl, -, hstate⟩ | ⟨t, rfl, -, -, hstate⟩ | ⟨t, status, rfl, -, -, hstate⟩
  · rw [hstate]
    intro t ht
    cases ht
  · -- what a transaction knows is of kinds that stay registered
    rw [hstate]
    intro t' ht'
    exact Option.some.inj ht' ▸ (hwithin t rfl).mono hkinds
  · rw [hstate]
    intro t' ht'
    exact Option.some.inj ht' ▸ (op.within_advance (hwithin t rfl)).mono hkinds
  · -- a transaction that finishes forgets all
    rw [hstate]
    intro t' ht'
    exact Option.some.inj ht' ▸ Transaction.within_of_empty rfl rfl

/-- A transaction that is open behind an operation was open in front of it, and has moved on
    by that operation. -/
theorem open_of_run (op : Operation β) {s : Session} (hwithin : s.Within store)
    {t' : Transaction} (hstate : (op.run s store).state = ⟨some t'⟩)
    (ht' : t'.status = .active) :
    ∃ t, s = ⟨some t⟩ ∧ t.status = .active ∧ op.ending? = none ∧ t' = op.advance t store := by
  rcases op.state_cases hwithin with
    ⟨-, h⟩ | ⟨t, rfl, ht, h⟩ | ⟨t, rfl, ht, hending, h⟩ | ⟨t, status, rfl, -, hstatus, h⟩
  · cases h.symm.trans hstate
  · -- a finished transaction is not open again, and an ending leaves none open
    obtain ⟨rfl⟩ := h.symm.trans hstate
    exact absurd ht' ht
  · obtain ⟨rfl⟩ := h.symm.trans hstate
    exact ⟨t, rfl, ht, hending, rfl⟩
  · obtain ⟨rfl⟩ := h.symm.trans hstate
    exact absurd ht' hstatus

/-- An operation does not turn a plain session into a transaction, nor the other way round. -/
theorem isSome_transaction_run (op : Operation β) {s : Session} (hwithin : s.Within store) :
    (op.run s store).state.transaction.isSome = s.transaction.isSome := by
  rcases op.state_cases hwithin with
    ⟨rfl, h⟩ | ⟨t, rfl, -, h⟩ | ⟨t, rfl, -, -, h⟩ | ⟨t, status, rfl, -, -, h⟩
  all_goals exact congrArg (fun s => s.transaction.isSome) h

/-- A write comes from a plain session that asked for it, or from a transaction that held it
    back and has been committed. -/
theorem writes_cases (op : Operation β) {s : Session} {key : RecordKey} {body : Option Json}
    (h : (op.writes s store)[key]? = some body) :
    (s = .plain ∧ op.change? = some (key, body)) ∨
      ∃ t answer, s = ⟨some t⟩ ∧ op.ending? = some .commit ∧
        (op.run s store).result = .ok answer ∧ t.writes[key]? = some body := by
  obtain ⟨transaction⟩ := s
  -- the answer, and whether there is a transaction, say where writes come from
  unfold writes at h
  split at h
  · rw [Std.ExtTreeMap.getElem?_empty] at h
    cases h
  · -- a plain session
    next htransaction =>
    obtain rfl : transaction = none := htransaction
    split at h
    · next key' body' hchange =>
      rw [Std.ExtTreeMap.getElem?_insert, Std.ExtTreeMap.getElem?_empty] at h
      split at h
      · next heq =>
        obtain rfl := Std.LawfulEqOrd.compare_eq_iff_eq.1 heq
        obtain rfl := Option.some.inj h
        exact .inl ⟨rfl, hchange⟩
      · cases h
    · rw [Std.ExtTreeMap.getElem?_empty] at h
      cases h
  · -- a transaction
    next t hresult htransaction =>
    obtain rfl : transaction = some t := htransaction
    split at h
    · next hending => exact .inr ⟨t, _, rfl, hending, hresult, h⟩
    · rw [Std.ExtTreeMap.getElem?_empty] at h
      cases h

/-- A plain session writes what is asked for, under registered kinds. -/
theorem getElem?_writes_plain (op : Operation β) (store : Store) (k : RecordKey) :
    (op.writes .plain store)[k]? =
      match op.change? with
      | some (key, body) =>
        if key = k ∧ store.isRegistered key.kind = true then some body else none
      | none => none := by
  -- a set of one write holds that write and no other
  have hsingle : ∀ (key : RecordKey) (body : Option Json),
      ((∅ : WriteSet).insert key body)[k]? = if key = k then some body else none := by
    intro key body
    rw [Std.ExtTreeMap.getElem?_insert, Std.ExtTreeMap.getElem?_empty]
    simp only [Std.LawfulEqOrd.compare_eq_iff_eq]
  -- only saves and deletes ask for a write
  cases op with
  | save type entity =>
    rw [writes, run, Session.save_plain, change?]
    cases type.encode entity with
    | error cause => exact Std.ExtTreeMap.getElem?_empty
    | ok body =>
      cases hreg : store.isRegistered type.kindName with
      | false => simp [hreg]
      | true => exact (hsingle _ _).trans (by simp [hreg])
  | delete type id =>
    rw [writes, run, Session.delete_plain, change?]
    cases hreg : store.isRegistered type.kindName with
    | false => simp [hreg]
    | true => exact (hsingle _ _).trans (by simp [hreg])
  | load type id =>
    rw [writes]
    split <;> exact Std.ExtTreeMap.getElem?_empty
  | query type start =>
    rw [writes]
    split <;> exact Std.ExtTreeMap.getElem?_empty
  | finish ending => cases ending <;> exact Std.ExtTreeMap.getElem?_empty

end Operation

end EntityStore
