import EntityStore.Proofs.Query.Search
import EntityStore.Proofs.Session.Replay
import EntityStore.Proofs.Session.Rows

/-! # A transaction that runs alone

While no other session acts, it makes no difference whether operations run in a transaction
that is committed, or in a plain session: they answer the same, except for versions, and leave
the same kinds, ids and bodies.

* `SameAnswer`          answers that are errors alike, or values that are related
* `Event.Agrees`        events that differ in the versions of rows at most
* `Transaction.Buffered`  how a transaction on one store relates to a plain session on another
* `World.alone`         the two runs agree -/

namespace EntityStore

/-! ## Answers that agree -/

/-- Two answers are the same error, or two values that are related. -/
inductive SameAnswer {β γ : Type} (R : β → γ → Prop) : Except Error β → Except Error γ → Prop where
  | ok {b : β} {c : γ} (h : R b c) : SameAnswer R (.ok b) (.ok c)
  | error (e : Error) : SameAnswer R (.error e) (.error e)

/-- Two rows of the same entity.  The first one has no version, or that of the other. -/
structure Row.Agrees {α : Type} (row row' : Row α) : Prop where
  id_eq : row.id = row'.id
  entity_eq : row.entity = row'.entity
  version : row.version = 0 ∨ row.version = row'.version

/-- Two queries with rows that agree, which report the same cursor after any number of
    pulls. -/
structure Query.Agrees {α : Type} (q q' : Query α) : Prop where
  kind_eq : q.kind = q'.kind
  rows : List.Forall₂ Row.Agrees q.rows q'.rows
  cursor_eq : ∀ k, (Nat.repeat (fun q => q.next.2) k q).cursor =
    (Nat.repeat (fun q => q.next.2) k q').cursor

/-- Values of an operation that differ in the versions of rows at most. -/
def Operation.Agrees : {β : Type} → Operation β → β → β → Prop
  | _, .load _ _, found, found' => Option.Rel Row.Agrees found found'
  | _, .query _ _, q, q' => q.Agrees q'
  | _, .delete _ _, existed, existed' => existed = existed'
  | _, .save _ _, _, _ => True
  | _, .finish _, _, _ => True

/-- Events of the same operation with answers that agree. -/
inductive Event.Agrees : Event → Event → Prop where
  | answered {β : Type} (n : Nat) (op : Operation β) {answer answer' : Except Error β}
      (h : SameAnswer op.Agrees answer answer') :
      Agrees (.answered n op answer) (.answered n op answer')

/-- Every answer is the same as itself. -/
theorem SameAnswer.refl {β : Type} {R : β → β → Prop} (hR : ∀ b, R b b) (answer : Except Error β) :
    SameAnswer R answer answer := by
  cases answer with
  | error e => exact .error e
  | ok b => exact .ok (hR b)

/-- Every row agrees with itself. -/
theorem Row.Agrees.refl {α : Type} (row : Row α) : row.Agrees row := ⟨rfl, rfl, .inr rfl⟩

namespace Query

variable {α : Type} {q q' : Query α}

/-- Behind some of its rows a query has the others. -/
theorem repeat_next (q : Query α) (k : Nat) :
    Nat.repeat (fun q => q.next.2) k q = q.drop k := by
  induction k with
  | zero => rfl
  | succ k ih =>
    rw [Nat.repeat, ih, drop, drop, next, ← List.drop_drop]
    cases q.rows.drop k with
    | nil => rfl
    | cons row rows => rfl

/-- Queries with rows that agree report the same cursors. -/
theorem agrees_of_rows (hkind : q.kind = q'.kind)
    (hrows : List.Forall₂ Row.Agrees q.rows q'.rows) : q.Agrees q' := by
  refine ⟨hkind, hrows, fun k => ?_⟩
  rw [repeat_next, repeat_next, cursor, cursor, position, position, drop, drop]
  -- the cursor behind some rows is that of the next row, or of the end
  have hdrop := List.forall₂_drop k hrows
  cases hr : q.rows.drop k with
  | nil =>
    rw [hr, List.forall₂_nil_left_iff] at hdrop
    simp only [hdrop, hkind]
  | cons row rows =>
    rw [hr, List.forall₂_cons_left_iff] at hdrop
    obtain ⟨row', rows', hrow, -, heq⟩ := hdrop
    simp only [heq, hkind, hrow.id_eq]

end Query

/-! ## A transaction against a plain session -/

/-- What a transaction sees on one store, a plain session sees on another one: the records of
    the first store with the writes held back over them.  What the transaction remembers of
    the first store is up to date. -/
structure Transaction.Buffered (t : Transaction) (store plain : Store) : Prop where
  active : t.status = .active
  within : t.Within store
  kinds : ∀ name, plain.kind? name = store.kind? name
  records : ∀ key : RecordKey,
    match t.writes[key]? with
    | none => plain.record? key = store.record? key
    | some body => (plain.record? key).map Record.body = body
  reads : ∀ (key : RecordKey) (seen : UInt64), t.reads[key]? = some seen →
    Record.seenVersion (store.record? key) = seen

namespace Transaction

namespace Buffered

variable {t : Transaction} {store plain : Store}

/-- Both stores have the same registered kinds. -/
theorem isRegistered_eq (h : t.Buffered store plain) (name : String) :
    plain.isRegistered name = store.isRegistered name := by
  rw [Store.isRegistered_eq, Store.isRegistered_eq, h.kinds]

/-- A transaction begins with nothing held back, on the store that the plain session uses. -/
theorem begin (store : Store) (order : CheckOrder) :
    Transaction.Buffered { id := store.lastTransaction + 1, order } store.nextTransaction
      store where
  active := rfl
  within := within_of_empty rfl rfl
  kinds _ := rfl
  records key := by
    rw [Std.ExtTreeMap.getElem?_empty]
    rfl
  reads key seen h := by
    rw [Std.ExtTreeMap.getElem?_empty] at h
    cases h

/-- An operation that does not end the transaction keeps the two in step. -/
theorem step (h : t.Buffered store plain) {β : Type} (op : Operation β) :
    (op.advance t store).Buffered store (op.run .plain plain).store where
  active := (op.status_advance t store).trans h.active
  within := op.within_advance h.within
  kinds name := ((op.run_plain plain).2.kind?_eq name).trans (h.kinds name)
  records key := by
    rw [(op.run_plain plain).2.record?_eq, op.getElem?_writes_plain, op.getElem?_writes_advance]
    have hkey := h.records key
    cases hchange : op.change? with
    | none => exact hkey
    | some change =>
      obtain ⟨key', body⟩ := change
      simp only [h.isRegistered_eq]
      -- what the one holds back, the other writes
      by_cases hwrite : key' = key ∧ store.isRegistered key'.kind = true
      · simp only [if_pos hwrite]
        cases body <;> rfl
      · simp only [if_neg hwrite]
        exact hkey
  reads key seen hseen := by
    rw [op.getElem?_reads_advance] at hseen
    cases hearlier : t.reads[key]? with
    | some seen' =>
      rw [hearlier, Option.some_or] at hseen
      exact h.reads key seen (hearlier.trans hseen)
    | none =>
      -- no other session acts, so the version that is remembered now is up to date
      rw [hearlier, Option.none_or] at hseen
      split at hseen
      · exact Option.some.inj hseen
      · cases hseen

/-- Records over which writes are held back, and the records behind these writes. -/
private def SameBody (r r' : Record) : Prop :=
  r.body = r'.body ∧ (r.version = 0 ∨ r.version = r'.version)

/-- Records with the same bodies have rows that agree, or fail in the same way. -/
private theorem decodeRows_agree {α : Type} (type : EntityType α)
    {records records' : List (String × Record)}
    (h : List.Forall₂ (fun p q => p.1 = q.1 ∧ SameBody p.2 q.2) records records') :
    SameAnswer (List.Forall₂ Row.Agrees) (Session.decodeRows type records)
      (Session.decodeRows type records') := by
  induction h with
  | nil => exact .ok .nil
  | @cons p q records records' hpq hrest ih =>
    obtain ⟨hid, hbody, hversion⟩ := hpq
    -- the bodies are the same, so both lists fail at the same record if they fail
    rw [Session.decodeRows_cons, Session.decodeRows_cons, hbody]
    cases type.decode q.2.body with
    -- the first record is no entity in either list
    | error cause => exact .error _
    | ok entity =>
      revert ih
      generalize Session.decodeRows type records = rows
      generalize Session.decodeRows type records' = rows'
      rintro (hrows | e)
      · exact .ok (.cons ⟨hid, rfl, hversion⟩ hrows)
      · exact .error e

/-- What is held back over a record has the body that the plain session has written. -/
private theorem rel_records (h : t.Buffered store plain) (kind : String) (id : String) :
    Option.Rel SameBody
      (match t.writes[(⟨kind, id⟩ : RecordKey)]? with
        | none => store.record? ⟨kind, id⟩
        | some body => body.map (⟨0, ·⟩))
      (plain.record? ⟨kind, id⟩) := by
  have hkey := h.records ⟨kind, id⟩
  cases hpending : t.writes[(⟨kind, id⟩ : RecordKey)]? with
  | none =>
    -- nothing is held back, so both records are the same
    rw [hpending] at hkey
    rw [hkey]
    cases store.record? ⟨kind, id⟩ with
    | none => exact .none
    | some r => exact .some ⟨rfl, .inr rfl⟩
  | some body =>
    -- the plain session has written what is held back
    rw [hpending] at hkey
    rw [← hkey]
    cases plain.record? ⟨kind, id⟩ with
    | none => exact .none
    | some r => exact .some ⟨rfl, .inl rfl⟩

/-- A kind read from an id on gives the same rows. -/
theorem rowsFrom (h : t.Buffered store plain) {α : Type} (type : EntityType α)
    (start : Option String) :
    SameAnswer (List.Forall₂ Row.Agrees) ((Session.mk (some t)).rowsFrom store type start)
      (Session.plain.rowsFrom plain type start) := by
  rw [Session.rowsFrom, Session.rowsFrom, Session.active_of_active h.active]
  cases hreg : store.isRegistered type.kindName with
  | false =>
    rw [Store.readFrom_of_not_registered hreg,
      Store.readFrom_of_not_registered ((h.isRegistered_eq _).trans hreg)]
    exact .error _
  | true =>
    obtain ⟨records, hrecords, hget⟩ := Store.readFrom_of_registered hreg start
    obtain ⟨records', hrecords', hget'⟩ :=
      Store.readFrom_of_registered ((h.isRegistered_eq _).trans hreg) start
    rw [hrecords, hrecords']
    -- the writes held back are put over the records of the store
    refine decodeRows_agree type (Session.forall₂_toList fun id => ?_)
    rw [Session.getElem?_overlay, hget, hget']
    -- in front of the start there is nothing on either side
    by_cases hrange : ∀ s ∈ start, s ≤ id
    · simp only [if_pos hrange]
      exact h.rel_records type.kindName id
    · simp only [if_neg hrange]
      exact .none

/-- Queries of rows that agree agree. -/
private theorem query_of_rows {α : Type} (kind : String) {rows rows' : Except Error (List (Row α))}
    (h : SameAnswer (List.Forall₂ Row.Agrees) rows rows') :
    SameAnswer Query.Agrees (do return (⟨kind, ← rows⟩ : Query α))
      (do return (⟨kind, ← rows'⟩ : Query α)) := by
  cases h with
  | error e => exact .error e
  | ok hrows => exact .ok (Query.agrees_of_rows rfl hrows)

/-- A record that is held back is looked up as if it had been written. -/
private theorem answer_load (h : t.Buffered store plain) {α : Type} (type : EntityType α)
    (id : String) :
    SameAnswer (Option.Rel Row.Agrees) ((Session.mk (some t)).load store type id).result
      (Session.plain.load plain type id).result := by
  rw [Session.load_active h.active, Session.load_plain, h.isRegistered_eq]
  have hkey := h.records ⟨type.kindName, id⟩
  cases hpending : t.writes[(⟨type.kindName, id⟩ : RecordKey)]? with
  | none =>
    -- nothing is held back, so both look at the same record
    rw [hpending] at hkey
    simp only [hkey]
    apply SameAnswer.refl
    intro found
    cases found with
    | none => exact .none
    | some row => exact .some (Row.Agrees.refl row)
  | some body =>
    rw [hpending] at hkey
    have hreg : store.isRegistered type.kindName = true := h.within.isRegistered hpending
    -- the plain session has written what is held back, so it reads the same body
    simp only [hreg, if_true, ← hkey]
    cases plain.record? ⟨type.kindName, id⟩ with
    | none => exact .ok .none
    | some r =>
      simp only [Option.map_some, Session.decodePending, Session.decodeFound,
        EntityType.decodeRow]
      cases type.decode r.body with
      | error cause => exact .error _
      | ok entity => exact .ok (.some ⟨rfl, rfl, .inl rfl⟩)

/-- Saves are given the same answer. -/
private theorem answer_save (h : t.Buffered store plain) {α : Type} (type : EntityType α)
    (entity : α) :
    SameAnswer (fun _ _ => True) ((Session.mk (some t)).save store type entity).result
      (Session.plain.save plain type entity).result := by
  rw [Session.save_active h.active, Session.save_plain, h.isRegistered_eq]
  cases type.encode entity with
  | error cause => exact .error _
  | ok body =>
    cases store.isRegistered type.kindName with
    | false => exact .error _
    | true => exact .ok trivial

/-- Deletes are given the same answer. -/
private theorem answer_delete (h : t.Buffered store plain) {α : Type} (type : EntityType α)
    (id : String) :
    SameAnswer Eq ((Session.mk (some t)).delete store type id).result
      (Session.plain.delete plain type id).result := by
  rw [Session.delete_active h.active h.within, Session.delete_plain, h.isRegistered_eq]
  cases store.isRegistered type.kindName with
  -- the kind is refused in both
  | false => exact .error _
  | true =>
    have hkey := h.records ⟨type.kindName, id⟩
    apply SameAnswer.ok
    -- what the transaction holds back, the plain session has written
    cases hpending : t.writes[(⟨type.kindName, id⟩ : RecordKey)]? with
    | none =>
      rw [hpending] at hkey
      rw [hkey]
    | some body =>
      rw [hpending] at hkey
      show body.isSome = (plain.record? ⟨type.kindName, id⟩).isSome
      rw [← hkey, Option.isSome_map]

/-- At the end of a kind there are no rows, but the kind has to be registered. -/
private theorem table_agree (h : t.Buffered store plain) {α : Type} (kind : String) :
    SameAnswer Query.Agrees
      (do let _ ← store.table kind; return (⟨kind, []⟩ : Query α))
      (do let _ ← plain.table kind; return (⟨kind, []⟩ : Query α)) := by
  have hkinds := h.isRegistered_eq kind
  cases hreg : store.isRegistered kind with
  | false =>
    rw [Store.table_of_not_registered hreg, Store.table_of_not_registered (hkinds.trans hreg)]
    exact .error _
  | true =>
    obtain ⟨_, -, htable⟩ := Store.table_of_registered hreg
    obtain ⟨_, -, htable'⟩ := Store.table_of_registered (hkinds.trans hreg)
    rw [htable, htable']
    exact .ok (Query.agrees_of_rows rfl .nil)

/-- Queries are given answers that agree. -/
private theorem answer_query (h : t.Buffered store plain) {α : Type} (type : EntityType α)
    (start : Option Cursor) :
    SameAnswer Query.Agrees ((Session.mk (some t)).query store type start)
      (Session.plain.query plain type start) := by
  -- a query without a start, at an id, or at the end position
  cases start with
  | none => exact query_of_rows type.kindName (h.rowsFrom type none)
  | some cursor =>
    simp only [Session.query]
    cases Position.decodeFor cursor type.kindName with
    | error e => exact .error e
    | ok position =>
      obtain ⟨kind, nextId⟩ := position
      cases nextId with
      | some id => exact query_of_rows type.kindName (h.rowsFrom type (some id))
      | none => exact h.table_agree type.kindName

/-- An operation answers the same. -/
theorem answer (h : t.Buffered store plain) {β : Type} (op : Operation β)
    (hop : op.ending? = none) :
    SameAnswer op.Agrees (op.run ⟨some t⟩ store).result (op.run .plain plain).result := by
  cases op with
  | load type id => exact h.answer_load type id
  | save type entity => exact h.answer_save type entity
  | delete type id => exact h.answer_delete type id
  | query type start => exact h.answer_query type start
  | finish ending => cases hop

/-- The commit of a transaction that has run alone succeeds, and leaves the kinds and bodies
    that the plain session has left. -/
theorem commit (h : t.Buffered store plain) :
    ((Session.mk (some t)).commit store).result = .ok () ∧
      (∀ name, ((Session.mk (some t)).commit store).store.kind? name = plain.kind? name) ∧
      ∀ key, (((Session.mk (some t)).commit store).store.record? key).map Record.body =
        (plain.record? key).map Record.body := by
  have hresult : ((Session.mk (some t)).commit store).result = .ok () := by
    rw [Session.commit_of_fresh h.active h.within h.reads]
  have hwrites : (Operation.finish .commit).writes ⟨some t⟩ store = t.writes := by
    simp only [Operation.writes, Operation.run, Session.finish, hresult, Operation.ending?,
      if_true]
  have hwithin : (Session.mk (some t)).Within store := fun t' ht' =>
    Option.some.inj ht' ▸ h.within
  -- nobody else has written, so the commit applies what is held back
  have happlied := (Operation.finish .commit).run_applied ⟨some t⟩ hwithin
  rw [hwrites] at happlied
  refine ⟨hresult, fun name => (happlied.kind?_eq name).trans (h.kinds name).symm, fun key => ?_⟩
  have hrecord := happlied.record?_eq key
  have hkey := h.records key
  rw [show (Session.mk (some t)).commit store = (Operation.finish .commit).run ⟨some t⟩ store
    from rfl, hrecord]
  -- what is held back becomes the record, and the other records have been there all along
  cases hpending : t.writes[key]? with
  | none =>
    rw [hpending] at hkey
    rw [hkey]
  | some body =>
    rw [hpending] at hkey
    rw [hkey]
    cases body <;> rfl

end Buffered

end Transaction

/-! ## The two runs -/

namespace World

/-- Operations answer the same in the two sessions, one after the other. -/
private theorem run_agrees {w v : World} {t : Transaction} (hw : w.sessions 0 = some ⟨some t⟩)
    (hv : v.sessions 0 = some .plain) (h : t.Buffered w.store v.store)
    {requests : List ((β : Type) × Operation β)} (hops : ∀ r ∈ requests, r.2.ending? = none) :
    List.Forall₂ Event.Agrees (w.trace (requests.map fun r => .act 0 r.2))
        (v.trace (requests.map fun r => .act 0 r.2)) ∧
      ∃ t', (w.run (requests.map fun r => .act 0 r.2)).sessions 0 = some ⟨some t'⟩ ∧
        (v.run (requests.map fun r => .act 0 r.2)).sessions 0 = some .plain ∧
        t'.Buffered (w.run (requests.map fun r => .act 0 r.2)).store
          (v.run (requests.map fun r => .act 0 r.2)).store := by
  induction requests generalizing w v t with
  | nil => exact ⟨.nil, t, hw, hv, h⟩
  | cons request requests ih =>
    obtain ⟨β, op⟩ := request
    have hop : op.ending? = none := hops ⟨β, op⟩ List.mem_cons_self
    -- the transaction leaves the store as it is, and the plain session stays plain
    obtain ⟨hstore, hstate⟩ := op.run_active hop h.active h.within
    have hplain := (op.run_plain v.store).1
    have hnext := h.step op
    -- one step leads both worlds to where the other steps start from
    have hw' : (w.step (.act 0 op)).sessions 0 = some ⟨some (op.advance t w.store)⟩ := by
      simp [World.step, hw, hstate]
    have hv' : (v.step (.act 0 op)).sessions 0 = some .plain := by
      simp [World.step, hv, hplain]
    have h' : (op.advance t w.store).Buffered (w.step (.act 0 op)).store
        (v.step (.act 0 op)).store := by
      simpa [World.step, hw, hv, hstore] using hnext
    obtain ⟨hevents, hrest⟩ := ih hw' hv' h' fun r hr => hops r (List.mem_cons_of_mem _ hr)
    simp only [List.map_cons, trace, run_cons, event?, hw, hv, Option.toList_some,
      List.singleton_append]
    exact ⟨.cons (.answered 0 op (h.answer op hop)) hevents, hrest⟩

/-- A transaction that runs alone and commits answers what a plain session answers on the
    same store, and leaves the same kinds, ids and bodies. -/
theorem alone (store : Store) (order : CheckOrder) (requests : List ((β : Type) × Operation β))
    (hops : ∀ r ∈ requests, r.2.ending? = none) :
    let steps := requests.map fun r => Step.act 0 r.2
    let alone := (on store).run (.begin 0 order :: (steps ++ [.act 0 (.finish .commit)]))
    let plain := (on store).run (.plain 0 :: steps)
    (∃ events events',
      (on store).trace (.begin 0 order :: (steps ++ [.act 0 (.finish .commit)])) =
          .begun 0 order :: (events ++ [.committed 0]) ∧
        (on store).trace (.plain 0 :: steps) = .opened 0 :: events' ∧
        List.Forall₂ Event.Agrees events events') ∧
      alone.store.kinds = plain.store.kinds ∧
      ∀ key, (alone.store.record? key).map Record.body =
        (plain.store.record? key).map Record.body := by
  intro steps alone plain
  have hbegin : (on store).step (.begin 0 order) =
      (on store).put 0 (Session.begin store order).1 (Session.begin store order).2 := rfl
  have hplain : (on store).step (.plain 0) = (on store).put 0 .plain store := rfl
  obtain ⟨hevents, t, ht, hv, hbuffered⟩ := run_agrees
    (w := (on store).step (.begin 0 order)) (v := (on store).step (.plain 0)) rfl rfl
    (Transaction.Buffered.begin store order) hops
  obtain ⟨hresult, hkinds, hbodies⟩ := hbuffered.commit
  -- the commit is the last step, and the transaction has met no one by then
  have halone : alone.store = ((Session.mk (some t)).commit
      (((on store).step (.begin 0 order)).run steps).store).store := by
    simp only [alone, run_cons, run_append, run_nil]
    exact store_act _ ht _
  refine ⟨⟨((on store).step (.begin 0 order)).trace steps, ((on store).step (.plain 0)).trace steps,
    ?_, rfl, hevents⟩, ?_, ?_⟩
  · -- the commit of a transaction that met no one succeeds, and is the last event
    have hlast : (((on store).step (.begin 0 order)).run steps).trace [.act 0 (.finish .commit)] =
        [.committed 0] := by
      simp only [trace, event?, steps, ht, Operation.run, Session.finish, hresult,
        Option.toList_some, List.append_nil, Event.committed]
    rw [trace, trace_append, hlast]
    rfl
  · rw [halone]
    exact Store.kinds_congr hkinds
  · rw [halone]
    exact hbodies

/-- Two notes are saved, looked at and listed, and one of them is deleted again. -/
def drafts : List ((β : Type) × Operation β) :=
  [⟨_, .save Note.type (Note.of "a" "one")⟩, ⟨_, .save Note.type (Note.of "b" "two")⟩,
    ⟨_, .load Note.type "a"⟩, ⟨_, .delete Note.type "b"⟩, ⟨_, .query Note.type none⟩]

/-- The store on which the notes are kept. -/
def shelf : Store := (init.run [.register Note.type.kind]).store

/-- Behind the commit there is the note that has not been deleted again. -/
theorem alone_drafts :
    (((on shelf).run (.begin 0 :: (drafts.map (fun r => Step.act 0 r.2) ++
        [.act 0 (.finish .commit)]))).store.record? ⟨"Note", "a"⟩).map Record.body =
      some (.obj [("body", .str "one"), ("id", .str "a")]) ∧
    ((on shelf).run (.begin 0 :: (drafts.map (fun r => Step.act 0 r.2) ++
        [.act 0 (.finish .commit)]))).store.kinds = [Note.type.kind] := by
  have hops : ∀ r ∈ drafts, r.2.ending? = none := by simp [drafts, Operation.ending?]
  obtain ⟨-, hkinds, hbodies⟩ := alone shelf .ascending drafts hops
  exact ⟨(hbodies ⟨"Note", "a"⟩).trans rfl, hkinds.trans rfl⟩

end World

end EntityStore
