import EntityStore.Query.Basic
import EntityStore.Session.Basic

/-! # Data of a session

A plain session looks records up in the store and changes them there.  In a transaction, a
write that is held back hides the record in the store, and only a look past such writes is
remembered.

* `Session.load`  looks one entity up
* `Session.save`, `Session.delete`  change one entity
* `Session.query`  opens all entities of a kind, from a cursor on -/

namespace EntityStore

namespace Session

variable {α : Type}

/-- The entity of a record found by `load`, if there was one. -/
def decodeFound (type : EntityType α) (id : String) (record : Option Record) :
    Except Error (Option (Row α)) :=
  match record with
  | none => .ok none
  | some r => (type.decodeRow id r.version r.body).map some

/-- The entity of a write that is held back, if it is not a delete. -/
def decodePending (type : EntityType α) (id : String) (body : Option Json) :
    Except Error (Option (Row α)) :=
  match body with
  | none => .ok none
  | some body => (type.decodeRow id 0 body).map some

/-- Look an entity up by its id. -/
def load (s : Session) (store : Store) (type : EntityType α) (id : String) :
    Outcome Session (Option (Row α)) :=
  let key : RecordKey := ⟨type.kindName, id⟩
  match s.active with
  | .error e => ⟨.error e, store, s⟩
  | .ok none =>
    match store.read key with
    | .error e => ⟨.error e, store, s⟩
    | .ok record => ⟨decodeFound type id record, store, s⟩
  | .ok (some t) =>
    match t.writes[key]? with
    | some body => ⟨decodePending type id body, store, s⟩
    | none =>
      match store.read key with
      | .error e => ⟨.error e, store, s⟩
      | .ok record => ⟨decodeFound type id record, store, ⟨some (t.observe key record)⟩⟩

/-- Insert an entity or replace the one with its id. -/
def save (s : Session) (store : Store) (type : EntityType α) (entity : α) :
    Outcome Session Unit :=
  let key : RecordKey := ⟨type.kindName, type.id entity⟩
  match type.encode entity with
  | .error cause => ⟨.error (.serialization cause), store, s⟩
  | .ok body =>
    match s.active with
    | .error e => ⟨.error e, store, s⟩
    | .ok none =>
      match store.write key (some body) with
      | .error e => ⟨.error e, store, s⟩
      | .ok (_, store) => ⟨.ok (), store, s⟩
    | .ok (some t) =>
      match store.table type.kindName with
      | .error e => ⟨.error e, store, s⟩
      | .ok _ => ⟨.ok (), store, ⟨some (t.buffer key (some body))⟩⟩

/-- Delete the entity with an id, and tell whether there was one. -/
def delete (s : Session) (store : Store) (type : EntityType α) (id : String) :
    Outcome Session Bool :=
  let key : RecordKey := ⟨type.kindName, id⟩
  match s.active with
  | .error e => ⟨.error e, store, s⟩
  | .ok none =>
    match store.write key none with
    | .error e => ⟨.error e, store, s⟩
    | .ok (existed, store) => ⟨.ok existed, store, s⟩
  | .ok (some t) =>
    match t.writes[key]? with
    | some body => ⟨.ok body.isSome, store, ⟨some (t.buffer key none)⟩⟩
    | none =>
      match store.read key with
      | .error e => ⟨.error e, store, s⟩
      | .ok record =>
        ⟨.ok record.isSome, store, ⟨some ((t.observe key record).buffer key none)⟩⟩

/-- Records with the writes of a kind put over them that lie at `start` or behind it; what is
    held back has no version yet. -/
def overlay (kind : String) (start : Option String) (records : Std.ExtTreeMap String Record) :
    List (RecordKey × Option Json) → Std.ExtTreeMap String Record
  | [] => records
  | (key, body) :: writes =>
    if key.kind = kind ∧ (∀ id ∈ start, id ≤ key.id) then
      match body with
      | some body => overlay kind start (records.insert key.id ⟨0, body⟩) writes
      | none => overlay kind start (records.erase key.id) writes
    else overlay kind start records writes

/-- The entities of some records, or the error of the first that has none. -/
def decodeRows (type : EntityType α) : List (String × Record) → Except Error (List (Row α))
  | [] => .ok []
  | (id, r) :: records => do
    let row ← type.decodeRow id r.version r.body
    let rows ← decodeRows type records
    return row :: rows

/-- The rows of a kind from an id on, as the session sees them. -/
def rowsFrom (s : Session) (store : Store) (type : EntityType α) (start : Option String) :
    Except Error (List (Row α)) := do
  let records ← store.readFrom type.kindName start
  match ← s.active with
  | none => decodeRows type records.toList
  | some t => decodeRows type (overlay type.kindName start records t.writes.toList).toList

/-- Open a query over all entities of a kind, by ascending id, or from a cursor on.  A cursor
    of the position at the end gives a query without rows. -/
def query (s : Session) (store : Store) (type : EntityType α) (start : Option Cursor) :
    Except Error (Query α) := do
  match start with
  | none => return ⟨type.kindName, ← s.rowsFrom store type none⟩
  | some cursor =>
    match (← Position.decodeFor cursor type.kindName).nextId with
    | none =>
      let _ ← store.table type.kindName
      return ⟨type.kindName, []⟩
    | some id => return ⟨type.kindName, ← s.rowsFrom store type (some id)⟩

end Session

end EntityStore
