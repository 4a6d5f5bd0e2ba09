import EntityStore.Proofs.Page.Position
import EntityStore.Proofs.Query.Search
import EntityStore.Proofs.Scan.Calls
import EntityStore.Proofs.Session.Rows
import EntityStore.Proofs.Session.Run
import EntityStore.Proofs.Text.ByteOrder

/-! # Point reads and scans

A load asks the writes that are held back first, and then the table.  A query reads a part of
the table, puts the writes over it, and decodes what is there then.  Both come to the record
that the session sees, one address at a time or all of them in their order, so a query can be
told by the loads that it stands for.

* `Session.Opens`             the id that a query is opened at
* `Session.query_of_opens`    a query from an id on holds the rows from there
* `Query.after_source`        a query behind some of its rows
* `Session.decodeRows_error_iff`  decoding fails at the first record that is no entity
* `Session.scan_load`         the records of a scan are those that loads decode
* `Session.query_loads`       a query answers what loads of all its ids answer -/

namespace EntityStore

/-- The ids from a first one on, by their bytes, or all of them. -/
def IdsFrom (first : Option String) (id : String) : Prop :=
  ∀ f ∈ first, Utf8.encode f ≤ Utf8.encode id

/-- From the front on there are all ids. -/
theorem idsFrom_none (id : String) : IdsFrom none id := nofun

/-- The ids from one on, by the order of strings instead of that of their bytes. -/
theorem idsFrom_iff {first : Option String} {id : String} :
    IdsFrom first id ↔ ∀ f ∈ first, f ≤ id := by
  simp only [IdsFrom, Utf8.encode_le_encode_iff]

/-! ## Cursors of a query -/

namespace Query

variable {α : Type}

/-- A query behind some of its rows. -/
theorem after_source (n : Nat) (q : Query α) : source.after n q = q.drop n := by
  induction n generalizing q with
  | zero => rfl
  | succ n ih =>
    rw [Source.after, ih]
    obtain ⟨kind, rows⟩ := q
    cases rows with
    | nil =>
      -- nothing moves behind the last row
      simp only [source, next, drop, List.drop_nil]
    | cons row rows => rfl

/-- The next row, and the cursor that names it. -/
theorem position_drop (n : Nat) (q : Query α) :
    (q.drop n).next.1 = q.rows[n]? ∧ (q.drop n).cursor =
      (match q.rows[n]? with
        | some row => Position.before q.kind row.id
        | none => Position.atEnd q.kind).encode := by
  rw [← List.head?_drop]
  simp only [drop, next, cursor, position]
  cases q.rows.drop n <;> exact ⟨rfl, rfl⟩

end Query

namespace Session

variable {α : Type} {type : EntityType α} {s : Session} {store : Store}

/-! ## Records that are no entities -/

/-- Decoding fails at the first record that is no entity, for the reason that this one gives. -/
theorem decodeRows_error_iff {records : List (String × Record)} {e : Error} :
    decodeRows type records = .error e ↔
      ∃ before p after cause, records = before ++ p :: after ∧
        type.decode p.2.body = .error cause ∧ e = .serialization cause ∧
        ∀ q ∈ before, ∃ entity, type.decode q.2.body = .ok entity := by
  -- along the records; the cut lies in front of the first one, or behind it
  induction records with
  | nil => simp [decodeRows]
  | cons p records ih =>
    simp only [List.cons_eq_append_iff]
    cases hp : type.decode p.2.body with
    | error cause =>
      -- the first record is no entity, so the cut lies in front of it
      simp only [decodeRows_cons, hp, Except.error.injEq]
      constructor
      · rintro rfl
        exact ⟨[], p, records, cause, .inl ⟨rfl, rfl⟩, hp, rfl, List.forall_mem_nil _⟩
      · rintro ⟨before, q, after, cause', ⟨rfl, hcons⟩ | ⟨rest, rfl, -⟩, hq, rfl, hbefore⟩
        · obtain ⟨rfl, -⟩ := List.cons.inj hcons
          rw [Except.error.inj (hp.symm.trans hq)]
        · obtain ⟨entity, hentity⟩ := hbefore p List.mem_cons_self
          cases hp.symm.trans hentity
    | ok entity =>
      -- the first record is an entity, so the others decide
      have hrest : decodeRows type (p :: records) = .error e ↔
          decodeRows type records = .error e := by
        rw [decodeRows_cons, hp]
        cases decodeRows type records <;> simp
      rw [hrest, ih]
      constructor
      · rintro ⟨before, q, after, cause, rfl, hq, rfl, hbefore⟩
        exact ⟨p :: before, q, after, cause, .inr ⟨before, rfl, rfl⟩, hq, rfl,
          List.forall_mem_cons.2 ⟨⟨entity, hp⟩, hbefore⟩⟩
      · rintro ⟨before, q, after, cause, ⟨rfl, hcons⟩ | ⟨rest, rfl, rfl⟩, hq, rfl, hbefore⟩
        · obtain ⟨rfl, -⟩ := List.cons.inj hcons
          cases hp.symm.trans hq
        · exact ⟨rest, q, after, cause, rfl, hq, rfl, (List.forall_mem_cons.1 hbefore).2⟩

/-! ## One record -/

variable {id : String} {record : Option Record}

/-- Decoding what was found fails if it is a record and no entity. -/
theorem decodeFound_error_iff {e : Error} :
    decodeFound type id record = .error e ↔
      ∃ r cause, record = some r ∧ type.decode r.body = .error cause ∧
        e = .serialization cause := by
  cases record with
  | none => simp [decodeFound]
  | some r =>
    rw [decodeFound, EntityType.decodeRow]
    cases h : type.decode r.body <;> simp [Except.map, h, eq_comm]

/-- What was found is an entity if it is the row of a record. -/
theorem decodeFound_some_iff {row : Row α} :
    decodeFound type id record = .ok (some row) ↔
      ∃ r, record = some r ∧ RowOf type (id, r) row := by
  cases record with
  | none => simp [decodeFound]
  | some r =>
    refine ⟨fun h => ⟨r, rfl, rowOf_decodeRow h⟩, ?_⟩
    rintro ⟨r', hr, rfl, hversion, hdecode⟩
    -- the row is made of the id, the version of the record and its entity
    obtain rfl := Option.some.inj hr
    obtain ⟨rowId, version, entity⟩ := row
    obtain rfl : version = r.version := hversion
    rw [decodeFound, EntityType.decodeRow, hdecode]
    rfl

/-- Nothing is wrong with a record that is not there, or that is an entity. -/
theorem exists_decodeFound_iff :
    (∃ found, decodeFound type id record = .ok found) ↔
      ∀ r, record = some r → ∃ entity, type.decode r.body = .ok entity := by
  cases record with
  | none => simp [decodeFound]
  | some r =>
    rw [decodeFound, EntityType.decodeRow]
    cases h : type.decode r.body <;> simp [Except.map, h]

/-! ## The records of a map -/

variable {records : Std.ExtTreeMap String Record}

/-- The records of a map have rows if each of them is an entity. -/
theorem exists_decodeRows_toList_iff :
    (∃ rows, decodeRows type records.toList = .ok rows) ↔
      ∀ id, ∃ found, decodeFound type id records[id]? = .ok found := by
  simp only [exists_decodeRows_iff, exists_decodeFound_iff,
    ← Std.ExtTreeMap.mem_toList_iff_getElem?_eq_some]
  exact ⟨fun h id r hr => h (id, r) hr, fun h p hp => h p.1 p.2 hp⟩

/-- The rows of a map are the entities that are found under its ids. -/
theorem mem_decodeRows_toList {rows : List (Row α)}
    (h : decodeRows type records.toList = .ok rows) (row : Row α) :
    row ∈ rows ↔ ∃ id, decodeFound type id records[id]? = .ok (some row) := by
  simp only [mem_of_decodeRows h, decodeFound_some_iff]
  constructor
  · exact fun hrow => ⟨row.id, hrow⟩
  · rintro ⟨id, r, hr, hof⟩
    obtain rfl : row.id = id := hof.id_eq
    exact ⟨r, hr, hof⟩

/-- The first record of a map that is no entity is the one with the smallest id. -/
theorem decodeRows_toList_error_iff {e : Error} :
    decodeRows type records.toList = .error e ↔
      ∃ id, decodeFound type id records[id]? = .error e ∧
        ∀ id', id' < id → ∃ found, decodeFound type id' records[id']? = .ok found := by
  simp only [decodeRows_error_iff, decodeFound_error_iff, exists_decodeFound_iff,
    ← Std.ExtTreeMap.mem_toList_iff_getElem?_eq_some]
  have hsorted := pairwise_toList records
  constructor
  · rintro ⟨before, ⟨id, r⟩, after, cause, hlist, hcause, rfl, hbefore⟩
    rw [hlist] at hsorted ⊢
    refine ⟨id, ⟨r, cause, by simp, hcause, rfl⟩, fun id' hlt r' hr' => ?_⟩
    -- the records with smaller ids lie in front
    obtain ⟨-, hbehind, -⟩ := List.pairwise_append.1 hsorted
    rcases List.mem_append.1 hr' with hr' | hr'
    · exact hbefore _ hr'
    · rcases List.mem_cons.1 hr' with heq | hr'
      · cases heq
        exact absurd hlt Std.lt_irrefl
      · exact absurd (Std.lt_trans hlt ((List.pairwise_cons.1 hbehind).1 _ hr')) Std.lt_irrefl
  · rintro ⟨id, ⟨r, cause, hr, hcause, rfl⟩, hsmaller⟩
    -- the list is cut at the record, and what is in front of it has smaller ids
    obtain ⟨before, after, hlist⟩ := List.append_of_mem hr
    refine ⟨before, (id, r), after, cause, hlist, hcause, rfl, fun q hq => ?_⟩
    rw [hlist] at hsorted hsmaller
    have hlt : q.1 < id :=
      (List.pairwise_append.1 hsorted).2.2 q hq (id, r) List.mem_cons_self
    exact hsmaller q.1 hlt q.2 (List.mem_append_left _ hq)

/-! ## Loads and queries -/

/-- The id that a query is opened at: none for all rows, or the one that its cursor names. -/
inductive Opens (type : EntityType α) : Option Cursor → Option String → Prop where
  | all : Opens type none none
  | cursor {cursor : Cursor} {id : String}
      (h : Position.decodeFor cursor type.kindName = .ok (.before type.kindName id)) :
      Opens type (some cursor) (some id)

/-- There is a cursor at every id, whether or not there is a record. -/
theorem opens_encode (type : EntityType α) (id : String) :
    Opens type (some (Position.before type.kindName id).encode) (some id) :=
  .cursor (Position.decodeFor_encode (.before type.kindName id))

/-- A query from an id on holds the rows from there. -/
theorem query_of_opens {start : Option Cursor} {first : Option String}
    (h : Opens type start first) :
    s.query store type start = (s.rowsFrom store type first).map (⟨type.kindName, ·⟩) := by
  cases h with
  | all =>
    rw [query]
    cases s.rowsFrom store type none <;> rfl
  | cursor hcursor =>
    simp only [query, hcursor, Position.before, bind, Except.bind]
    cases s.rowsFrom store type _ <;> rfl

/-- A query succeeds if the rows from its start on can be read. -/
theorem query_ok_iff {start : Option Cursor} {first : Option String} (h : Opens type start first)
    {q : Query α} :
    s.query store type start = .ok q ↔
      ∃ rows, s.rowsFrom store type first = .ok rows ∧ ⟨type.kindName, rows⟩ = q := by
  rw [query_of_opens h]
  cases s.rowsFrom store type first <;> simp [Except.map]

/-- A query fails as the reading of its rows does. -/
theorem query_error_iff {start : Option Cursor} {first : Option String}
    (h : Opens type start first) {e : Error} :
    s.query store type start = .error e ↔ s.rowsFrom store type first = .error e := by
  rw [query_of_opens h]
  cases s.rowsFrom store type first <;> simp [Except.map]

/-- The records of a scan are those that loads of their ids decode. -/
theorem scan_load {transaction : Option Transaction} (hactive : s.active = .ok transaction)
    (hregistered : store.isRegistered type.kindName = true) (first : Option String) :
    ∃ records : Std.ExtTreeMap String Record,
      s.rowsFrom store type first = decodeRows type records.toList ∧
        (∀ id, IdsFrom first id →
          (s.load store type id).result = decodeFound type id records[id]?) ∧
        ∀ id, ¬ IdsFrom first id → decodeFound type id records[id]? = .ok none := by
  obtain ⟨records, hrows, hrecords⟩ := exists_rowsFrom hactive hregistered first
  refine ⟨records, hrows, fun id hid => ?_, fun id hid => ?_⟩
  · rw [load_visible hactive, if_pos (.inr hregistered), hrecords, if_pos (idsFrom_iff.1 hid)]
  · rw [hrecords, if_neg fun h => hid (idsFrom_iff.2 h)]
    rfl

/-- A query answers what loads of all its ids answer. -/
theorem query_loads {transaction : Option Transaction} (hactive : s.active = .ok transaction)
    (hregistered : store.isRegistered type.kindName = true) {start : Option Cursor}
    {first : Option String} (hopens : Opens type start first) :
    ((∃ q, s.query store type start = .ok q) ↔
        ∀ id, IdsFrom first id → ∃ found, (s.load store type id).result = .ok found) ∧
      (∀ q, s.query store type start = .ok q →
        (q.rows.Pairwise fun a b => Utf8.encode a.id < Utf8.encode b.id) ∧
        (∀ row, row ∈ q.rows ↔
          ∃ id, IdsFrom first id ∧ (s.load store type id).result = .ok (some row)) ∧
        ∀ n, (Query.source.after n q).next.1 = q.rows[n]? ∧
          (Query.source.after n q).cursor =
            (match q.rows[n]? with
              | some row => Position.before type.kindName row.id
              | none => Position.atEnd type.kindName).encode) ∧
      ∀ e, s.query store type start = .error e ↔
        ∃ id, IdsFrom first id ∧ (s.load store type id).result = .error e ∧
          ∀ id', IdsFrom first id' → Utf8.encode id' < Utf8.encode id →
            ∃ found, (s.load store type id').result = .ok found := by
  obtain ⟨records, hrows, hload, hout⟩ := scan_load hactive hregistered first
  -- outside of the ids of the query nothing is found, and nothing is wrong
  have hfound (id : String) : (∃ found, decodeFound type id records[id]? = .ok found) ↔
      (IdsFrom first id → ∃ found, (s.load store type id).result = .ok found) := by
    by_cases hid : IdsFrom first id
    · simp only [hid, forall_const, hload id hid]
    · simp only [hid, false_implies, iff_true]
      exact ⟨none, hout id hid⟩
  have hof (id : String) (answer : Except Error (Option (Row α))) (hne : answer ≠ .ok none) :
      decodeFound type id records[id]? = answer ↔
        IdsFrom first id ∧ (s.load store type id).result = answer := by
    by_cases hid : IdsFrom first id
    · simp only [hid, true_and, hload id hid]
    · simp only [hid, false_and, iff_false, hout id hid]
      exact hne.symm
  simp only [query_ok_iff hopens, query_error_iff hopens, hrows]
  refine ⟨?_, ?_, fun e => ?_⟩
  · simp only [← hfound, ← exists_decodeRows_toList_iff]
    exact ⟨fun ⟨_, rows, hdecode, _⟩ => ⟨rows, hdecode⟩, fun ⟨rows, h⟩ => ⟨_, rows, h, rfl⟩⟩
  · rintro q ⟨rows, hdecode, rfl⟩
    refine ⟨?_, fun row => ?_, fun n => ?_⟩
    · exact (pairwise_of_decodeRows hdecode).imp fun hlt => Utf8.encode_lt_encode_iff.2 hlt
    · rw [mem_decodeRows_toList hdecode]
      exact exists_congr fun id => hof id _ (by simp)
    · rw [Query.after_source]
      exact Query.position_drop n _
  · rw [decodeRows_toList_error_iff]
    simp only [hof _ (.error e) (by simp), hfound, Utf8.encode_lt_encode_iff, and_assoc]
    -- what has to be found in front of the failing id is asked for in another order
    exact exists_congr fun id => and_congr_right' <| and_congr_right' <|
      forall_congr' fun id' => imp.swap

/-- Entities of the kind of notes that have no body, so that they are no notes. -/
def bare : EntityType Json := Schema.entityType ⟨Note.type.kind, [("id", .text)]⟩

/-- A transaction hides two of three records that are no notes, one by a note, one by a delete.
    In front of the third it has another note. -/
def masked : List Step :=
  [.register Note.type.kind, .plain 0, .act 0 (.save bare (Note.of "a" "")),
    .act 0 (.save bare (Note.of "c" "")), .act 0 (.save bare (Note.of "e" "")),
    .act 0 (.save Note.type (Note.of "g" "old")), .begin 1,
    .act 1 (.save Note.type (Note.of "A" "low")), .act 1 (.save Note.type (Note.of "c" "new")),
    .act 1 (.delete Note.type "e")]

/-- The session of that transaction. -/
def masking : Session := ((World.init.run masked).sessions 1).get (by decide +kernel)

/-- From "b" on, where there is no record, everything can be read; from the front, not. -/
theorem query_loads_masked :
    (World.init.run masked).sessions 1 = some masking ∧ masking.isActive = true ∧
      (∃ q, masking.query (World.init.run masked).store Note.type
          (some (Position.before Note.type.kindName "b").encode) = .ok q ∧
        q.rows = [Note.row "c" 0 "new", Note.row "g" 4 "old"] ∧
        ∀ id, IdsFrom (some "b") id → ∃ found,
          (masking.load (World.init.run masked).store Note.type id).result = .ok found) ∧
      ∃ id, (masking.load (World.init.run masked).store Note.type id).result =
          .error (.serialization (.missingField "body")) ∧
        ∀ id', Utf8.encode id' < Utf8.encode id → ∃ found,
          (masking.load (World.init.run masked).store Note.type id').result = .ok found := by
  have hregistered : (World.init.run masked).store.isRegistered Note.type.kindName = true := by
    decide +kernel
  have hopens := opens_encode Note.type "b"
  refine ⟨(Option.some_get _).symm, rfl, ?_, ?_⟩
  · have hrows : masking.rowsFrom (World.init.run masked).store Note.type (some "b") =
        .ok [Note.row "c" 0 "new", Note.row "g" 4 "old"] := by
      with_unfolding_all rfl
    have hquery : masking.query (World.init.run masked).store Note.type
        (some (Position.before Note.type.kindName "b").encode) = _ := query_of_opens hopens
    rw [hrows] at hquery
    exact ⟨_, hquery, rfl, (query_loads rfl hregistered hopens).1.1 ⟨_, hquery⟩⟩
  · -- the first record from the front is no entity
    have herror : masking.query (World.init.run masked).store Note.type none =
        .error (.serialization (.missingField "body")) := rfl
    obtain ⟨id, -, hid, hbefore⟩ := ((query_loads rfl hregistered .all).2.2 _).1 herror
    exact ⟨id, hid, fun id' hlt => hbefore id' (idsFrom_none id') hlt⟩

end Session

end EntityStore
