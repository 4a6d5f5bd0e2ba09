import EntityStore.Proofs.Session.Operation
import Mathlib.Data.List.Forall2

/-! # Rows of a kind

The rows that a session reads come from two maps, the records of the store from an id on and
the writes that a transaction holds back over them.  Both are told here by what they have at
each id, and the rows by the records that they are made of.

* `Store.readFrom_of_registered`  the records from an id on
* `Session.getElem?_overlay`      held back writes over some records
* `Session.forall₂_toList`        maps that are related at each id have related lists
* `Session.decodeRows_ok_iff`     the rows of some records
* `Session.visible?`              what a session sees at an address
* `Session.exists_rowsFrom`       a scan reads what its session sees from an id on
* `Session.rowsFrom_plain`        the rows outside of a transaction
* `Session.load_visible`          a load reads what its session sees at one address
* `Session.visible_of_query`      a row that a query returns is what its session sees -/

namespace EntityStore

namespace Store

variable {store : Store} {kind : String}

/-- The records of a kind from an id on. -/
theorem readFrom_of_registered (h : store.isRegistered kind = true) (start : Option String) :
    ∃ records, store.readFrom kind start = .ok records ∧ ∀ id : String,
      records[id]? = if ∀ s ∈ start, s ≤ id then store.record? ⟨kind, id⟩ else none := by
  obtain ⟨t, ht, htable⟩ := table_of_registered h
  have hrecord : ∀ id : String, store.record? ⟨kind, id⟩ = t[id]? := fun id => by
    rw [record?, ht, Option.bind_some]
  cases start with
  | none =>
    refine ⟨t, by rw [readFrom, htable]; rfl, fun id => ?_⟩
    rw [if_pos (by simp), hrecord]
  | some s =>
    -- the records in front of the start are left out
    refine ⟨t.filter fun id _ => s ≤ id, by rw [readFrom, htable]; rfl, fun id => ?_⟩
    rw [Std.ExtTreeMap.getElem?_filter', hrecord]
    by_cases hs : s ≤ id
    · cases t[id]? <;> simp [hs]
    · simp [hs]

/-- The records of a kind that is not registered cannot be read. -/
theorem readFrom_of_not_registered (h : store.isRegistered kind = false)
    (start : Option String) : store.readFrom kind start = .error (.kindNotRegistered kind) := by
  rw [readFrom, table_of_not_registered h]
  rfl

end Store

namespace Session

variable {kind : String} {start : Option String} {id : String}

/-! ## Held back writes -/

/-- One write, over some records. -/
private theorem overlay_cons (kind : String) (start : Option String)
    (records : Std.ExtTreeMap String Record) (key : RecordKey) (body : Option Json)
    (writes : List (RecordKey × Option Json)) :
    ∃ records', overlay kind start records ((key, body) :: writes) =
        overlay kind start records' writes ∧
      ∀ id : String, records'[id]? =
        if key = ⟨kind, id⟩ ∧ (∀ s ∈ start, s ≤ id) then body.map (⟨0, ·⟩) else records[id]? := by
  obtain ⟨kind', id'⟩ := key
  -- a write of another kind, or in front of the range, is passed over
  by_cases hrange : kind' = kind ∧ ∀ s ∈ start, s ≤ id'
  · obtain ⟨rfl, hstart⟩ := hrange
    cases body with
    | none =>
      -- a delete takes the row away
      refine ⟨records.erase id', by rw [overlay, if_pos ⟨rfl, hstart⟩], fun id => ?_⟩
      rw [Std.ExtTreeMap.getElem?_erase]
      by_cases hid : id' = id
      · subst hid
        rw [if_pos (Std.LawfulEqOrd.compare_eq_iff_eq.2 rfl), if_pos ⟨rfl, hstart⟩]
        rfl
      · simp [hid]
    | some body =>
      -- a save puts the row in, with version 0
      refine ⟨records.insert id' ⟨0, body⟩, by rw [overlay, if_pos ⟨rfl, hstart⟩],
        fun id => ?_⟩
      rw [Std.ExtTreeMap.getElem?_insert]
      by_cases hid : id' = id
      · subst hid
        rw [if_pos (Std.LawfulEqOrd.compare_eq_iff_eq.2 rfl), if_pos ⟨rfl, hstart⟩]
        rfl
      · simp [hid]
  · refine ⟨records, by cases body <;> rw [overlay, if_neg hrange], fun id => ?_⟩
    rw [if_neg]
    rintro ⟨heq, hstart⟩
    obtain ⟨rfl, rfl⟩ := RecordKey.mk.inj heq
    exact hrange ⟨rfl, hstart⟩

/-- An id that nothing is held back for, or not in the range, keeps its record. -/
private theorem getElem?_overlay_of_not_mem {writes : List (RecordKey × Option Json)}
    {records : Std.ExtTreeMap String Record}
    (h : ∀ body, (⟨kind, id⟩, body) ∈ writes → ¬ ∀ s ∈ start, s ≤ id) :
    (overlay kind start records writes)[id]? = records[id]? := by
  -- along the writes, each of which leaves other records to go on from
  induction writes generalizing records with
  | nil => rfl
  | cons w writes ih =>
    obtain ⟨key, body⟩ := w
    obtain ⟨records', hcons, hrecords'⟩ := overlay_cons kind start records key body writes
    have hnot : ¬ (key = ⟨kind, id⟩ ∧ ∀ s ∈ start, s ≤ id) := by
      rintro ⟨rfl, hrange⟩
      exact h body List.mem_cons_self hrange
    rw [hcons, ih fun body hb => h body (List.mem_cons_of_mem _ hb), hrecords', if_neg hnot]

/-- An id of the range that something is held back for shows that. -/
private theorem getElem?_overlay_of_mem {writes : List (RecordKey × Option Json)}
    (hdistinct : writes.Pairwise fun a b => a.1 ≠ b.1) {body : Option Json}
    (hmem : (⟨kind, id⟩, body) ∈ writes) (hrange : ∀ s ∈ start, s ≤ id)
    {records : Std.ExtTreeMap String Record} :
    (overlay kind start records writes)[id]? = body.map (⟨0, ·⟩) := by
  induction writes generalizing records with
  | nil => cases hmem
  | cons w writes ih =>
    obtain ⟨key, body'⟩ := w
    obtain ⟨hfirst, hdistinct⟩ := List.pairwise_cons.1 hdistinct
    obtain ⟨records', hcons, hrecords'⟩ := overlay_cons kind start records key body' writes
    rw [hcons]
    rcases List.mem_cons.1 hmem with heq | hmem
    · -- no later write is for the same record
      obtain ⟨rfl, rfl⟩ := Prod.mk.inj heq
      rw [getElem?_overlay_of_not_mem fun body' hb => absurd rfl (hfirst (_, body') hb), hrecords',
        if_pos ⟨rfl, hrange⟩]
    · exact ih hdistinct hmem

/-- What is held back for an id of the range hides the record there. -/
theorem getElem?_overlay (kind : String) (start : Option String)
    (records : Std.ExtTreeMap String Record) (writes : WriteSet) (id : String) :
    (overlay kind start records writes.toList)[id]? =
      match (if ∀ s ∈ start, s ≤ id then writes[(⟨kind, id⟩ : RecordKey)]? else none) with
      | none => records[id]?
      | some body => body.map (⟨0, ·⟩) := by
  have hmem : ∀ body, ((⟨kind, id⟩ : RecordKey), body) ∈ writes.toList ↔
      writes[(⟨kind, id⟩ : RecordKey)]? = some body := fun body =>
    Std.ExtTreeMap.mem_toList_iff_getElem?_eq_some
  by_cases hrange : ∀ s ∈ start, s ≤ id
  · rw [if_pos hrange]
    -- the set of writes names an id once, or not at all
    cases hpending : writes[(⟨kind, id⟩ : RecordKey)]? with
    | none =>
      apply getElem?_overlay_of_not_mem
      intro body hb
      rw [(hmem body).1 hb] at hpending
      cases hpending
    | some body =>
      refine getElem?_overlay_of_mem ?_ ((hmem body).2 hpending) hrange
      apply Std.ExtTreeMap.distinct_keys_toList.imp
      intro a b hne
      rwa [Std.LawfulEqOrd.compare_eq_iff_eq] at hne
  · -- outside of the range no write is put over the records
    rw [if_neg hrange]
    exact getElem?_overlay_of_not_mem fun _ _ => hrange

/-! ## Lists of records -/

/-- Lists with the same first components are related if their second ones are. -/
private theorem forall₂_of_map_fst {β γ : Type} {R : β → γ → Prop} {l : List (String × β)}
    {l' : List (String × γ)} (hfst : l.map Prod.fst = l'.map Prod.fst)
    (hR : ∀ p ∈ l, ∀ q ∈ l', p.1 = q.1 → R p.2 q.2) :
    List.Forall₂ (fun p q => p.1 = q.1 ∧ R p.2 q.2) l l' := by
  induction l generalizing l' with
  | nil =>
    rw [List.map_nil, eq_comm, List.map_eq_nil_iff] at hfst
    rw [hfst]
    exact .nil
  | cons p l ih =>
    cases l' with
    | nil => cases hfst
    | cons q l' =>
      -- the first elements have the same name, and the rest is related as well
      obtain ⟨hpq, hrest⟩ := List.cons.inj hfst
      refine .cons ⟨hpq, hR p List.mem_cons_self q List.mem_cons_self hpq⟩ (ih hrest ?_)
      exact fun p' hp q' hq => hR p' (List.mem_cons_of_mem _ hp) q' (List.mem_cons_of_mem _ hq)

/-- Maps that are related at each id have related lists. -/
theorem forall₂_toList {β γ : Type} {R : β → γ → Prop} {m : Std.ExtTreeMap String β}
    {m' : Std.ExtTreeMap String γ} (h : ∀ id : String, Option.Rel R m[id]? m'[id]?) :
    List.Forall₂ (fun p q => p.1 = q.1 ∧ R p.2 q.2) m.toList m'.toList := by
  -- the maps have the same keys, and so do the lists, which come in the order of the keys
  have hunit : m.map (fun _ _ => ()) = m'.map fun _ _ => () := by
    apply Std.ExtTreeMap.ext_getElem?
    intro id
    have hid := h id
    rw [Std.ExtTreeMap.getElem?_map, Std.ExtTreeMap.getElem?_map]
    cases hm : m[id]? <;> cases hm' : m'[id]? <;> rw [hm, hm'] at hid <;>
      first | rfl | cases hid
  have hkeys : m.keys = m'.keys := by
    have := congrArg Std.ExtTreeMap.keys hunit
    rwa [Std.ExtTreeMap.keys_map, Std.ExtTreeMap.keys_map] at this
  refine forall₂_of_map_fst ?_ fun p hp q hq hpq => ?_
  · rw [Std.ExtTreeMap.map_fst_toList_eq_keys, Std.ExtTreeMap.map_fst_toList_eq_keys, hkeys]
  · -- elements of the same key are what the maps hold there
    have hrel := h p.1
    rw [Std.ExtTreeMap.mem_toList_iff_getElem?_eq_some.1 hp, hpq,
      Std.ExtTreeMap.mem_toList_iff_getElem?_eq_some.1 hq] at hrel
    cases hrel
    assumption

/-! ## Rows of records -/

/-- A row comes from the record under its id. -/
structure RowOf {α : Type} (type : EntityType α) (p : String × Record) (row : Row α) : Prop where
  id_eq : row.id = p.1
  version_eq : row.version = p.2.version
  decode_eq : type.decode p.2.body = .ok row.entity

variable {α : Type}

/-- The first record is decoded, and then the others. -/
theorem decodeRows_cons (type : EntityType α) (p : String × Record)
    (records : List (String × Record)) :
    decodeRows type (p :: records) =
      match type.decode p.2.body with
      | .error cause => .error (.serialization cause)
      | .ok entity =>
        match decodeRows type records with
        | .error e => .error e
        | .ok rows => .ok (⟨p.1, p.2.version, entity⟩ :: rows) := by
  rw [decodeRows, EntityType.decodeRow]
  cases type.decode p.2.body with
  | error cause => rfl
  | ok entity => cases decodeRows type records <;> rfl

/-- The rows of some records. -/
theorem decodeRows_ok_iff {type : EntityType α} {records : List (String × Record)}
    {rows : List (Row α)} :
    decodeRows type records = .ok rows ↔ List.Forall₂ (RowOf type) records rows := by
  -- along the records; the first that is no entity ends the reading
  induction records generalizing rows with
  | nil =>
    rw [decodeRows, List.forall₂_nil_left_iff, Except.ok.injEq, eq_comm]
  | cons p records ih =>
    rw [decodeRows_cons, List.forall₂_cons_left_iff]
    constructor
    · intro h
      cases hdecode : type.decode p.2.body with
      | error cause => rw [hdecode] at h; cases h
      | ok entity =>
        cases hrest : decodeRows type records with
        | error e => rw [hdecode, hrest] at h; cases h
        | ok rest =>
          rw [hdecode, hrest] at h
          -- the first record is an entity, and so are the others
          obtain rfl := Except.ok.inj h
          exact ⟨_, _, ⟨rfl, rfl, hdecode⟩, ih.1 hrest, rfl⟩
    · rintro ⟨⟨rowId, version, entity⟩, rest, ⟨rfl, rfl, hdecode⟩, hrest, rfl⟩
      rw [hdecode, ih.2 hrest]

/-- What is on the left of related lists is related to something on the right. -/
private theorem exists_right {β γ : Type} {R : β → γ → Prop} {l : List β} {l' : List γ}
    (h : List.Forall₂ R l l') {b : β} (hb : b ∈ l) : ∃ c ∈ l', R b c := by
  induction h with
  | nil => cases hb
  | @cons b' c' l l' hR _ ih =>
    rcases List.mem_cons.1 hb with rfl | hb
    · exact ⟨c', List.mem_cons_self, hR⟩
    · obtain ⟨c, hc, hR⟩ := ih hb
      exact ⟨c, List.mem_cons_of_mem _ hc, hR⟩

/-- Rows have the ids of their records. -/
private theorem map_id_rows {type : EntityType α} {records : List (String × Record)}
    {rows : List (Row α)} (h : List.Forall₂ (RowOf type) records rows) :
    rows.map Row.id = records.map Prod.fst := by
  induction h with
  | nil => rfl
  | cons hrow _ ih => rw [List.map_cons, List.map_cons, hrow.id_eq, ih]

/-- Some records have rows if each of them is an entity. -/
theorem exists_decodeRows_iff {type : EntityType α} {records : List (String × Record)} :
    (∃ rows, decodeRows type records = .ok rows) ↔
      ∀ p ∈ records, ∃ entity, type.decode p.2.body = .ok entity := by
  constructor
  · -- every record has its row
    rintro ⟨rows, hrows⟩ p hp
    obtain ⟨row, -, hof⟩ := exists_right (decodeRows_ok_iff.1 hrows) hp
    exact ⟨row.entity, hof.decode_eq⟩
  · intro h
    induction records with
    | nil => exact ⟨[], rfl⟩
    | cons p records ih =>
      obtain ⟨⟨entity, hentity⟩, hrest⟩ := List.forall_mem_cons.1 h
      obtain ⟨rows, hrows⟩ := ih hrest
      exact ⟨_, by rw [decodeRows_cons, hentity, hrows]⟩

/-- A row of some records is the record under its id, read as an entity. -/
theorem mem_of_decodeRows {type : EntityType α} {records : Std.ExtTreeMap String Record}
    {rows : List (Row α)} (h : decodeRows type records.toList = .ok rows) (row : Row α) :
    row ∈ rows ↔ ∃ r, records[row.id]? = some r ∧ RowOf type (row.id, r) row := by
  rw [decodeRows_ok_iff] at h
  constructor
  · -- the row stands where its record does
    intro hrow
    obtain ⟨⟨id, r⟩, hr, hof⟩ := exists_right h.flip hrow
    obtain rfl : row.id = id := hof.id_eq
    exact ⟨r, Std.ExtTreeMap.mem_toList_iff_getElem?_eq_some.1 hr, hof⟩
  · rintro ⟨r, hr, hof⟩
    obtain ⟨row', hrow', hof'⟩ :=
      exists_right h (Std.ExtTreeMap.mem_toList_iff_getElem?_eq_some.2 hr)
    -- a record is read in one way only
    have hentity : row'.entity = row.entity :=
      Except.ok.inj (hof'.decode_eq.symm.trans hof.decode_eq)
    have hrows : row' = row := by
      cases row
      cases row'
      rw [Row.mk.injEq]
      exact ⟨hof'.id_eq, hof'.version_eq.trans hof.version_eq.symm, hentity⟩
    rwa [← hrows]

/-- Strings are compared as they are ordered. -/
private theorem lt_of_compare {a b : String} (h : compare a b = .lt) : a < b :=
  compareOfLessAndEq_eq_lt.1 h

/-- A map lists its entries by ascending id. -/
theorem pairwise_toList {β : Type} (m : Std.ExtTreeMap String β) :
    m.toList.Pairwise fun p q => p.1 < q.1 :=
  Std.ExtTreeMap.ordered_keys_toList.imp lt_of_compare

/-- The rows of some records come by ascending id. -/
theorem pairwise_of_decodeRows {type : EntityType α} {records : Std.ExtTreeMap String Record}
    {rows : List (Row α)} (h : decodeRows type records.toList = .ok rows) :
    rows.Pairwise fun a b => a.id < b.id := by
  have hids := map_id_rows (decodeRows_ok_iff.1 h)
  have hsorted : (rows.map Row.id).Pairwise fun a b => a < b := by
    rw [hids]
    exact List.pairwise_map.2 (pairwise_toList records)
  exact List.pairwise_map.1 hsorted

/-! ## What a session sees -/

/-- What a session holds back for an address, if anything: a body, or a delete. -/
def held? (s : Session) (key : RecordKey) : Option (Option Json) :=
  s.transaction.bind fun t => t.writes[key]?

/-- The record that a session sees at an address.  What it holds back hides the record of the
    store, and has no version yet. -/
def visible? (s : Session) (store : Store) (key : RecordKey) : Option Record :=
  match s.held? key with
  | some body => body.map (⟨0, ·⟩)
  | none => store.record? key

variable {s : Session} {store : Store} {type : EntityType α} {row : Row α}

/-- A row is read from the records that its session sees from an id on. -/
theorem exists_rowsFrom {transaction : Option Transaction} (hactive : s.active = .ok transaction)
    (hregistered : store.isRegistered type.kindName = true) (start : Option String) :
    ∃ records : Std.ExtTreeMap String Record,
      s.rowsFrom store type start = decodeRows type records.toList ∧ ∀ id : String,
        records[id]? =
          if ∀ f ∈ start, f ≤ id then s.visible? store ⟨type.kindName, id⟩ else none := by
  obtain ⟨records, hread, hrecords⟩ := Store.readFrom_of_registered hregistered start
  obtain ⟨transaction⟩ := s
  cases transaction with
  | none =>
    -- without a transaction the records of the store are all there is
    refine ⟨records, ?_, hrecords⟩
    simp only [rowsFrom, hread, bind, Except.bind, active]
  | some t =>
    by_cases ht : t.status = .active
    · refine ⟨overlay type.kindName start records t.writes.toList, ?_, fun id => ?_⟩
      · simp only [rowsFrom, hread, bind, Except.bind, active_of_active ht]
      -- both maps have rows of the range only
      · rw [getElem?_overlay, hrecords, visible?, held?, Option.bind_some]
        by_cases hrange : ∀ f ∈ start, f ≤ id
        · simp only [if_pos hrange]
          cases t.writes[(⟨type.kindName, id⟩ : RecordKey)]? <;> rfl
        · simp only [if_neg hrange]
    · rw [active_of_finished ht] at hactive
      cases hactive

/-- Outside of a transaction, the rows from an id on are the records that lie there. -/
theorem rowsFrom_plain {store : Store} {type : EntityType α}
    (hregistered : store.isRegistered type.kindName = true)
    (hdecodes : ∀ id r, store.record? ⟨type.kindName, id⟩ = some r →
      ∃ entity, type.decode r.body = .ok entity) (start : Option String) :
    ∃ rows, plain.rowsFrom store type start = .ok rows ∧
      rows.Pairwise (fun a b => a.id < b.id) ∧
      ∀ row, row ∈ rows ↔ (∀ s ∈ start, s ≤ row.id) ∧
        ∃ r, store.record? ⟨type.kindName, row.id⟩ = some r ∧ RowOf type (row.id, r) row := by
  have hactive : plain.active = .ok none := rfl
  obtain ⟨records, hread, hrecords⟩ := exists_rowsFrom hactive hregistered start
  have hrecord : ∀ id r, records[id]? = some r ↔
      (∀ s ∈ start, s ≤ id) ∧ store.record? ⟨type.kindName, id⟩ = some r := fun id r => by
    rw [hrecords, Option.ite_none_right_eq_some]
    rfl
  -- every record in the range is one of the table, so it is an entity
  have hall : ∀ p ∈ records.toList, ∃ entity, type.decode p.2.body = .ok entity := fun p hp => by
    have hp := Std.ExtTreeMap.mem_toList_iff_getElem?_eq_some.1 hp
    exact hdecodes p.1 p.2 ((hrecord p.1 p.2).1 hp).2
  obtain ⟨rows, hrows⟩ := exists_decodeRows_iff.2 hall
  refine ⟨rows, hread.trans hrows, pairwise_of_decodeRows hrows, fun row => ?_⟩
  simp only [mem_of_decodeRows hrows, hrecord, and_assoc, exists_and_left]

/-- A row that a session reads is what it sees under the id of the row. -/
theorem visible_of_rowsFrom {start : Option String} {rows : List (Row α)}
    (h : s.rowsFrom store type start = .ok rows) (hrow : row ∈ rows) :
    ∃ r, s.visible? store ⟨type.kindName, row.id⟩ = some r ∧ RowOf type (row.id, r) row := by
  cases hreg : store.isRegistered type.kindName with
  | false =>
    simp only [rowsFrom, Store.readFrom_of_not_registered hreg, bind, Except.bind] at h
    cases h
  | true =>
    -- a session reads rows if the kind is registered and its transaction has not finished
    cases hactive : s.active with
    | error e =>
      obtain ⟨records, hread, -⟩ := Store.readFrom_of_registered hreg start
      simp only [rowsFrom, hread, hactive, bind, Except.bind] at h
      cases h
    | ok transaction =>
      obtain ⟨records, hread, hrecords⟩ := exists_rowsFrom hactive hreg start
      obtain ⟨r, hr, hof⟩ := (mem_of_decodeRows (hread.symm.trans h) row).1 hrow
      rw [hrecords, Option.ite_none_right_eq_some] at hr
      exact ⟨r, hr.2, hof⟩

/-- A row that a query returns is what its session sees under the id of the row. -/
theorem visible_of_query {start : Option Cursor} {q : Query α}
    (h : s.query store type start = .ok q) (hrow : row ∈ q.rows) :
    ∃ r, s.visible? store ⟨type.kindName, row.id⟩ = some r ∧ RowOf type (row.id, r) row := by
  -- a query from a cursor and one from the first record read their rows in the same way
  have hrows : ∀ first,
      (do return (⟨type.kindName, ← s.rowsFrom store type first⟩ : Query α)) = .ok q →
        ∃ r, s.visible? store ⟨type.kindName, row.id⟩ = some r ∧ RowOf type (row.id, r) row := by
    intro first hfirst
    cases hread : s.rowsFrom store type first with
    | error e =>
      rw [hread] at hfirst
      cases hfirst
    | ok rows =>
      rw [hread] at hfirst
      obtain rfl := Except.ok.inj hfirst
      exact visible_of_rowsFrom hread hrow
  cases start with
  | none => exact hrows none h
  | some cursor =>
    -- the cursor is decoded first, and the rows are read from there
    rw [query] at h
    cases hdecode : Position.decodeFor cursor type.kindName with
    | error e =>
      rw [hdecode] at h
      cases h
    | ok p =>
      rw [hdecode] at h
      obtain ⟨kind, _ | id⟩ := p
      · -- behind the last record there are no rows
        simp only [bind, Except.bind] at h
        split at h
        · cases h
        · obtain rfl := Except.ok.inj h
          cases hrow
      · exact hrows (some id) h

/-- A record is read as a row under its id. -/
theorem rowOf_decodeRow {id : String} {r : Record}
    (h : (type.decodeRow id r.version r.body).map some = .ok (some row)) :
    RowOf type (id, r) row := by
  rw [EntityType.decodeRow] at h
  cases hdecode : type.decode r.body with
  | error cause =>
    rw [hdecode] at h
    cases h
  | ok entity =>
    rw [hdecode] at h
    cases h
    exact ⟨rfl, rfl, hdecode⟩

/-- A load reads the record that its session sees.  What is held back is there even if the kind
    is not registered. -/
theorem load_visible {transaction : Option Transaction} (hactive : s.active = .ok transaction)
    (store : Store) (type : EntityType α) (id : String) :
    (s.load store type id).result =
      if (s.held? ⟨type.kindName, id⟩).isSome = true ∨ store.isRegistered type.kindName = true then
        decodeFound type id (s.visible? store ⟨type.kindName, id⟩)
      else .error (.kindNotRegistered type.kindName) := by
  obtain ⟨transaction⟩ := s
  cases transaction with
  | none =>
    have hload := load_plain store type id
    simp only [plain] at hload
    rw [hload]
    cases store.isRegistered type.kindName <;> rfl
  | some t =>
    -- an open transaction looks at what it holds back first
    by_cases ht : t.status = .active
    · cases hheld : t.writes[(⟨type.kindName, id⟩ : RecordKey)]? with
      | none =>
        simp only [load_active ht, visible?, held?, Option.bind_some, hheld, Option.isSome_none,
          Bool.false_eq_true, false_or]
      | some body =>
        simp only [load_active ht, visible?, held?, Option.bind_some, hheld, Option.isSome_some,
          true_or, if_true]
        cases body <;> rfl
    · rw [active_of_finished ht] at hactive
      cases hactive

/-- A row that is loaded is what its session sees at the address. -/
theorem visible_of_load {id : String} (h : (s.load store type id).result = .ok (some row)) :
    ∃ r, s.visible? store ⟨type.kindName, id⟩ = some r ∧ RowOf type (id, r) row := by
  cases hactive : s.active with
  | error e =>
    -- a finished transaction loads nothing
    simp only [load, hactive] at h
    cases h
  | ok transaction =>
    rw [load_visible hactive] at h
    split at h
    · cases hvisible : s.visible? store ⟨type.kindName, id⟩ with
      | none =>
        rw [hvisible] at h
        cases h
      | some r =>
        rw [hvisible] at h
        exact ⟨r, rfl, rowOf_decodeRow h⟩
    · cases h

end Session

end EntityStore
