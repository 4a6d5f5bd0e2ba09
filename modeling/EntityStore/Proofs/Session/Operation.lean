import EntityStore.Entity.Schema
import EntityStore.Proofs.Store.Commit
import EntityStore.Session.Data

/-! # Operations of a session

The operations of a session as values, so that sequences of them can be talked about, and
what one operation does to the session it runs in and to the store.

* `Operation.run`           runs an operation
* `Operation.run_active`    in an open transaction, only what the transaction remembers moves on
* `Operation.run_congr`     there, the answer hangs on the one record that is looked at -/

namespace EntityStore

/-- An operation of a session, with the type of its answer. -/
inductive Operation : Type → Type 1 where
  | load {α : Type} (type : EntityType α) (id : String) : Operation (Option (Row α))
  | save {α : Type} (type : EntityType α) (entity : α) : Operation Unit
  | delete {α : Type} (type : EntityType α) (id : String) : Operation Bool
  | query {α : Type} (type : EntityType α) (start : Option Cursor) : Operation (Query α)
  | finish (ending : Ending) : Operation Unit

namespace Operation

variable {β : Type}

/-- Run an operation in a session. -/
def run : Operation β → Session → Store → Outcome Session β
  | .load type id, s, store => s.load store type id
  | .save type entity, s, store => s.save store type entity
  | .delete type id, s, store => s.delete store type id
  | .query type start, s, store => ⟨s.query store type start, store, s⟩
  | .finish ending, s, store => s.finish ending store

/-- The record that an operation looks up by its address. -/
def key? : Operation β → Option RecordKey
  | .load type id => some ⟨type.kindName, id⟩
  | .delete type id => some ⟨type.kindName, id⟩
  | _ => none

/-- The write that an operation asks for. -/
def change? : Operation β → Option (RecordKey × Option Json)
  | .save type entity =>
    match type.encode entity with
    | .ok body => some (⟨type.kindName, type.id entity⟩, some body)
    | .error _ => none
  | .delete type id => some (⟨type.kindName, id⟩, none)
  | _ => none

/-- How an operation ends a transaction, if it does. -/
def ending? : Operation β → Option Ending
  | .finish ending => some ending
  | _ => none

/-- Whether an operation reads a whole kind. -/
def isQuery : Operation β → Bool
  | .query _ _ => true
  | _ => false

end Operation

/-! ## What a transaction remembers -/

namespace Transaction

variable {t : Transaction} {store : Store}

/-- Look at the record at an address, which a write held back for it hides. -/
def look (t : Transaction) (store : Store) (key : RecordKey) : Transaction :=
  if t.writes[key]? = none ∧ store.isRegistered key.kind = true then
    t.observe key (store.record? key)
  else t

/-- Everything that a transaction remembers lies under registered kinds. -/
structure Within (t : Transaction) (store : Store) : Prop where
  reads : ∀ key, key ∈ t.reads → store.isRegistered key.kind = true
  writes : ∀ key, key ∈ t.writes → store.isRegistered key.kind = true

/-- What is held back lies under a registered kind. -/
theorem Within.isRegistered (h : t.Within store) {key : RecordKey} {body : Option Json}
    (hkey : t.writes[key]? = some body) : store.isRegistered key.kind = true :=
  h.writes key (Std.ExtTreeMap.mem_iff_isSome_getElem?.2 (by rw [hkey]; rfl))

/-- Kinds that are registered later do no harm. -/
theorem Within.mono {store' : Store} (h : t.Within store)
    (hkinds : ∀ name, store.isRegistered name = true → store'.isRegistered name = true) :
    t.Within store' :=
  ⟨fun key hkey => hkinds key.kind (h.reads key hkey),
    fun key hkey => hkinds key.kind (h.writes key hkey)⟩

/-- A transaction that remembers nothing. -/
theorem within_of_empty (hreads : t.reads = ∅) (hwrites : t.writes = ∅) : t.Within store := by
  constructor
  · intro key hkey
    rw [hreads] at hkey
    exact absurd hkey Std.ExtTreeMap.not_mem_empty
  · intro key hkey
    rw [hwrites] at hkey
    exact absurd hkey Std.ExtTreeMap.not_mem_empty

/-- The version remembered first stays. -/
theorem getElem?_reads_observe (t : Transaction) (key k : RecordKey) (record : Option Record) :
    (t.observe key record).reads[k]? =
      (t.reads[k]?).or (if key = k then some (Record.seenVersion record) else none) := by
  have hmem : key ∉ t.reads ↔ t.reads[key]? = none := by
    rw [Std.ExtTreeMap.mem_iff_isSome_getElem?, Bool.not_eq_true, Option.isSome_eq_false_iff,
      Option.isNone_iff_eq_none]
  rw [observe, Std.ExtTreeMap.getElem?_insertIfNew]
  simp only [Std.LawfulEqOrd.compare_eq_iff_eq, hmem]
  by_cases hkey : key = k
  · -- the version is put in if none is there yet
    subst hkey
    cases t.reads[key]? <;> simp
  · simp only [hkey, false_and, if_false, Option.or_none]

/-- A buffered write hides what was held back for its record. -/
theorem getElem?_writes_buffer (t : Transaction) (key k : RecordKey) (body : Option Json) :
    (t.buffer key body).writes[k]? = if key = k then some body else t.writes[k]? := by
  rw [buffer, Std.ExtTreeMap.getElem?_insert]
  simp only [Std.LawfulEqOrd.compare_eq_iff_eq]

/-- A look remembers the version of a record, unless one is remembered already or a write is held
    back for it. -/
theorem getElem?_reads_look (t : Transaction) (store : Store) (key k : RecordKey) :
    (t.look store key).reads[k]? =
      (t.reads[k]?).or (if key = k ∧ t.writes[key]? = none ∧ store.isRegistered key.kind = true
        then some (Record.seenVersion (store.record? key)) else none) := by
  rw [look]
  -- the two reasons not to look are that a write is held back and that there is no such kind
  by_cases h : t.writes[key]? = none ∧ store.isRegistered key.kind = true
  · simp only [h, and_self, and_true, if_true, getElem?_reads_observe]
  · simp only [h, and_false, if_false, Option.or_none]

/-- Looking holds nothing back. -/
@[simp] theorem writes_look (t : Transaction) (store : Store) (key : RecordKey) :
    (t.look store key).writes = t.writes := by
  rw [look]
  split <;> rfl

/-- Looking ends nothing. -/
@[simp] theorem status_look (t : Transaction) (store : Store) (key : RecordKey) :
    (t.look store key).status = t.status := by
  rw [look]
  split <;> rfl

end Transaction

/-! ## One operation at a time -/

namespace Session

variable {α : Type} {t : Transaction} {store : Store}

/-- An open transaction takes part in what its session does. -/
theorem active_of_active (ht : t.status = .active) :
    (Session.mk (some t)).active = .ok (some t) :=
  if_pos ht

/-- A transaction that has finished refuses everything. -/
theorem active_of_finished (ht : t.status ≠ .active) :
    (Session.mk (some t)).active = .error .transactionNotActive :=
  if_neg ht

/-- A session is active while its transaction is open. -/
theorem isActive_iff {s : Session} :
    s.isActive = true ↔ ∃ t, s = ⟨some t⟩ ∧ t.status = .active := by
  obtain ⟨transaction⟩ := s
  cases transaction with
  | none => simp [isActive, status]
  | some t => simp [isActive, status]

/-- A load outside of transactions reads the record. -/
theorem load_plain (store : Store) (type : EntityType α) (id : String) :
    plain.load store type id =
      ⟨if store.isRegistered type.kindName = true then
          decodeFound type id (store.record? ⟨type.kindName, id⟩)
        else .error (.kindNotRegistered type.kindName), store, plain⟩ := by
  cases hreg : store.isRegistered type.kindName <;>
    simp [load, plain, active, Store.read_eq, hreg]

/-- A load in a transaction reads what is held back, or else the record, and remembers that it
    looked. -/
theorem load_active (ht : t.status = .active) (store : Store) (type : EntityType α)
    (id : String) :
    (Session.mk (some t)).load store type id =
      ⟨match t.writes[(⟨type.kindName, id⟩ : RecordKey)]? with
        | some body => decodePending type id body
        | none =>
          if store.isRegistered type.kindName = true then
            decodeFound type id (store.record? ⟨type.kindName, id⟩)
          else .error (.kindNotRegistered type.kindName),
        store, ⟨some (t.look store ⟨type.kindName, id⟩)⟩⟩ := by
  cases hreg : store.isRegistered type.kindName <;>
    cases hpending : t.writes[(⟨type.kindName, id⟩ : RecordKey)]? <;>
    simp [load, active_of_active ht, Store.read_eq, hreg, hpending, Transaction.look]

/-- A save outside of transactions writes at once. -/
theorem save_plain (store : Store) (type : EntityType α) (entity : α) :
    plain.save store type entity =
      match type.encode entity with
      | .error cause => ⟨.error (.serialization cause), store, plain⟩
      | .ok body =>
        if store.isRegistered type.kindName = true then
          ⟨.ok (), store.nextVersion.set ⟨type.kindName, type.id entity⟩ (some body), plain⟩
        else ⟨.error (.kindNotRegistered type.kindName), store, plain⟩ := by
  cases hencode : type.encode entity <;> cases hreg : store.isRegistered type.kindName <;>
    simp [save, plain, active, Store.write_eq, hencode, hreg]

/-- A save in a transaction holds the entity back. -/
theorem save_active (ht : t.status = .active) (store : Store) (type : EntityType α)
    (entity : α) :
    (Session.mk (some t)).save store type entity =
      match type.encode entity with
      | .error cause => ⟨.error (.serialization cause), store, ⟨some t⟩⟩
      | .ok body =>
        if store.isRegistered type.kindName = true then
          ⟨.ok (), store, ⟨some (t.buffer ⟨type.kindName, type.id entity⟩ (some body))⟩⟩
        else ⟨.error (.kindNotRegistered type.kindName), store, ⟨some t⟩⟩ := by
  cases hencode : type.encode entity with
  | error cause => simp [save, hencode]
  -- the kind is looked up before the body is held back
  | ok body =>
    rcases store.table_eq type.kindName with ⟨table, -, htable, hreg⟩ | ⟨htable, hreg⟩ <;>
      simp [save, active_of_active ht, hencode, htable, hreg]

/-- A delete outside of transactions removes the record, and tells whether it was there. -/
theorem delete_plain (store : Store) (type : EntityType α) (id : String) :
    plain.delete store type id =
      if store.isRegistered type.kindName = true then
        ⟨.ok (store.record? ⟨type.kindName, id⟩).isSome,
          store.set ⟨type.kindName, id⟩ none, plain⟩
      else ⟨.error (.kindNotRegistered type.kindName), store, plain⟩ := by
  cases hreg : store.isRegistered type.kindName <;>
    simp [delete, plain, active, Store.write_eq, hreg]

/-- A delete in a transaction looks first, and holds the removal back. -/
theorem delete_active (ht : t.status = .active) (hwithin : t.Within store)
    (type : EntityType α) (id : String) :
    (Session.mk (some t)).delete store type id =
      if store.isRegistered type.kindName = true then
        ⟨.ok (match t.writes[(⟨type.kindName, id⟩ : RecordKey)]? with
            | some body => body.isSome
            | none => (store.record? ⟨type.kindName, id⟩).isSome),
          store, ⟨some ((t.look store ⟨type.kindName, id⟩).buffer ⟨type.kindName, id⟩ none)⟩⟩
      else ⟨.error (.kindNotRegistered type.kindName), store, ⟨some t⟩⟩ := by
  cases hpending : t.writes[(⟨type.kindName, id⟩ : RecordKey)]? with
  | some body =>
    -- a write can only be held back under a registered kind
    have hreg : store.isRegistered type.kindName = true := hwithin.isRegistered hpending
    simp [delete, active_of_active ht, hpending, hreg, Transaction.look]
  | none =>
    cases hreg : store.isRegistered type.kindName <;>
      simp [delete, active_of_active ht, Store.read_eq, hreg, hpending, Transaction.look]

end Session

namespace Operation

variable {β : Type} {t : Transaction} {store store' : Store}

/-- What a transaction remembers after the look that an operation takes. -/
def looked (op : Operation β) (t : Transaction) (store : Store) : Transaction :=
  match op.key? with
  | some key => t.look store key
  | none => t

/-- What a transaction remembers after an operation that does not end it. -/
def advance (op : Operation β) (t : Transaction) (store : Store) : Transaction :=
  match op.change? with
  | some (key, body) =>
    if store.isRegistered key.kind = true then (op.looked t store).buffer key body
    else op.looked t store
  | none => op.looked t store

/-- The look of an operation holds nothing back. -/
@[simp] theorem writes_looked (op : Operation β) (t : Transaction) (store : Store) :
    (op.looked t store).writes = t.writes := by
  unfold looked
  split
  · exact Transaction.writes_look t store _
  · rfl

/-- The look of an operation ends nothing. -/
@[simp] theorem status_looked (op : Operation β) (t : Transaction) (store : Store) :
    (op.looked t store).status = t.status := by
  unfold looked
  split
  · exact Transaction.status_look t store _
  · rfl

/-- In an open transaction, only what the transaction remembers moves on. -/
theorem run_active (op : Operation β) (hop : op.ending? = none) (ht : t.status = .active)
    (hwithin : t.Within store) :
    (op.run ⟨some t⟩ store).store = store ∧
      (op.run ⟨some t⟩ store).state = ⟨some (op.advance t store)⟩ := by
  -- each operation against what it looks up and what it holds back
  cases op with
  | load type id =>
    rw [run, Session.load_active ht]
    exact ⟨rfl, rfl⟩
  | save type entity =>
    rw [run, Session.save_active ht]
    cases hencode : type.encode entity with
    -- an entity that has no body is refused and changes nothing
    | error cause => simp [advance, looked, key?, change?, hencode]
    | ok body =>
      simp only [advance, looked, key?, change?, hencode]
      split <;> exact ⟨rfl, rfl⟩
  | delete type id =>
    rw [run, Session.delete_active ht hwithin]
    cases hreg : store.isRegistered type.kindName <;>
      simp [advance, looked, key?, change?, hreg, Transaction.look]
  | query type start => exact ⟨rfl, rfl⟩
  | finish ending => cases hop

/-- Whether an operation looks at the record at an address in the store.  A write that is
    held back for the record hides it. -/
def Looks (op : Operation β) (t : Transaction) (store : Store) (key : RecordKey) : Prop :=
  op.key? = some key ∧ t.writes[key]? = none ∧ store.isRegistered key.kind = true

instance (op : Operation β) (t : Transaction) (store : Store) (key : RecordKey) :
    Decidable (op.Looks t store key) :=
  inferInstanceAs (Decidable (_ ∧ _ ∧ _))

/-- Of an operation, only its look adds to the reads. -/
private theorem reads_advance (op : Operation β) (t : Transaction) (store : Store) :
    (op.advance t store).reads = (op.looked t store).reads := by
  unfold advance
  split
  · split <;> rfl
  · rfl

/-- The versions remembered are those of the records that were looked at. -/
theorem getElem?_reads_advance (op : Operation β) (t : Transaction) (store : Store)
    (k : RecordKey) :
    (op.advance t store).reads[k]? =
      (t.reads[k]?).or (if op.Looks t store k then some (Record.seenVersion (store.record? k))
        else none) := by
  rw [reads_advance, looked]
  cases hkey : op.key? with
  | none => simp [Looks, hkey]
  | some key =>
    -- only the record at this address is looked at
    simp only [Transaction.getElem?_reads_look, Looks, hkey, Option.some.injEq]
    by_cases h : key = k
    · subst h
      rfl
    · simp only [h, false_and, if_false]

/-- The writes held back are those that were asked for, under registered kinds. -/
theorem getElem?_writes_advance (op : Operation β) (t : Transaction) (store : Store)
    (k : RecordKey) :
    (op.advance t store).writes[k]? =
      match op.change? with
      | some (key, body) =>
        if key = k ∧ store.isRegistered key.kind = true then some body else t.writes[k]?
      | none => t.writes[k]? := by
  unfold advance
  split
  · next key body h =>
    -- a write under a kind that is not registered is refused, and not held back
    cases hreg : store.isRegistered key.kind with
    | true => simp only [if_true, and_true, Transaction.getElem?_writes_buffer, writes_looked]
    | false => simp only [Bool.false_eq_true, if_false, and_false, writes_looked]
  · rw [writes_looked]

/-- An operation that does not end its transaction leaves it open. -/
theorem status_advance (op : Operation β) (t : Transaction) (store : Store) :
    (op.advance t store).status = t.status := by
  unfold advance
  split
  · split
    · exact status_looked op t store
    · exact status_looked op t store
  · exact status_looked op t store

/-- An operation remembers nothing outside of the registered kinds. -/
theorem within_advance (op : Operation β) (h : t.Within store) :
    (op.advance t store).Within store := by
  constructor
  · intro key hkey
    -- a version that is new comes from a look at a registered kind
    rw [Std.ExtTreeMap.mem_iff_isSome_getElem?, getElem?_reads_advance] at hkey
    cases hseen : t.reads[key]? with
    | some seen => exact h.reads key (Std.ExtTreeMap.mem_iff_isSome_getElem?.2 (by rw [hseen]; rfl))
    | none =>
      rw [hseen, Option.none_or] at hkey
      split at hkey
      · next hlooks => exact hlooks.2.2
      · cases hkey
  · intro key hkey
    -- so does a write
    rw [Std.ExtTreeMap.mem_iff_isSome_getElem?, getElem?_writes_advance] at hkey
    split at hkey
    · split at hkey
      · next hreg => exact hreg.1 ▸ hreg.2
      · exact h.writes key (Std.ExtTreeMap.mem_iff_isSome_getElem?.2 hkey)
    · exact h.writes key (Std.ExtTreeMap.mem_iff_isSome_getElem?.2 hkey)

/-- Stores that agree on the record that is looked at leave the same behind. -/
theorem advance_congr (op : Operation β)
    (hkinds : ∀ name, store.isRegistered name = store'.isRegistered name)
    (hlook : ∀ key, op.Looks t store key → store.record? key = store'.record? key) :
    op.advance t store = op.advance t store' := by
  -- what is remembered of a look is the version that the record has there
  have hlooked : op.looked t store = op.looked t store' := by
    rw [looked, looked]
    cases hkey : op.key? with
    | none => rfl
    | some key =>
      simp only [Transaction.look, ← hkinds]
      split
      · next h => rw [hlook key ⟨hkey, h⟩]
      · rfl
  rw [advance, advance, hlooked]
  simp only [hkinds]

/-- In an open transaction the answer hangs on the one record that is looked at. -/
theorem run_congr (op : Operation β) (hop : op.ending? = none) (hquery : op.isQuery = false)
    (ht : t.status = .active) (hwithin : t.Within store)
    (hkinds : ∀ name, store.isRegistered name = store'.isRegistered name)
    (hlook : ∀ key, op.Looks t store key → store.record? key = store'.record? key) :
    (op.run ⟨some t⟩ store').result = (op.run ⟨some t⟩ store).result := by
  have hwithin' : t.Within store' := hwithin.mono fun name h => (hkinds name) ▸ h
  cases op with
  | load type id =>
    rw [run, run, Session.load_active ht, Session.load_active ht, ← hkinds]
    cases hpending : t.writes[(⟨type.kindName, id⟩ : RecordKey)]? with
    | some body => rfl
    | none =>
      -- nothing is held back, so the record is looked at if its kind is registered
      cases hreg : store.isRegistered type.kindName with
      | false => rfl
      | true => simp only [hlook _ ⟨rfl, hpending, hreg⟩]
  | save type entity =>
    rw [run, run, Session.save_active ht, Session.save_active ht, ← hkinds]
    cases type.encode entity with
    | error cause => rfl
    | ok body => simp only; split <;> rfl
  | delete type id =>
    rw [run, run, Session.delete_active ht hwithin, Session.delete_active ht hwithin', ← hkinds]
    cases hreg : store.isRegistered type.kindName with
    | false => rfl
    | true =>
      cases hpending : t.writes[(⟨type.kindName, id⟩ : RecordKey)]? with
      | some body => rfl
      | none => simp only [if_true, hlook _ ⟨rfl, hpending, hreg⟩]
  -- a query looks at all records of its kind, and is left out
  | query type start => cases hquery
  | finish ending => cases hop

end Operation

/-! ## Notes

A small entity type for runs that can be carried out. -/

namespace Note

/-- Notes, under their ids. -/
def type : EntityType Json :=
  Schema.entityType ⟨⟨"Note", "notes::Note"⟩, [("id", .text), ("body", .text)]⟩

/-- The note with an id and a body. -/
def of (id body : String) : Json := .obj [("id", .str id), ("body", .str body)]

/-- The row of a note, as it is read back: with its members by name. -/
def row (id : String) (version : UInt64) (body : String) : Row Json :=
  ⟨id, version, .obj [("body", .str body), ("id", .str id)]⟩

end Note

end EntityStore
