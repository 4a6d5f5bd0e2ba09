import EntityStore.Store.Commit

/-! # What a store holds

Three views say all that anybody can learn of the data in a store: the kind registered under
a name, the record at an address, and the version handed out last.  Each operation is
described by what it does to them, so nothing behind this file has to look into tables.

* `Store.read_eq`, `Store.write_eq`  reading and writing one record through the views
* `Store.record?_set`     one write changes one record
* `Store.record?_putAll`  a set of writes changes the records that it names
* `Store.writeAll_eq`     writes of registered kinds are all applied -/

namespace EntityStore

namespace Store

variable {store : Store} {key : RecordKey}

/-- The kind registered under a name. -/
def kind? (store : Store) (name : String) : Option Kind := store.tables.kinds[name]?

/-- The record at an address; there is none under a name that is not registered. -/
def record? (store : Store) (key : RecordKey) : Option Record :=
  store.tables.records[key.kind]?.bind fun t => t[key.id]?

/-- Put a body at an address under the version handed out last, or without one take the
    record away.  Under a name that is not registered nothing happens. -/
def set (store : Store) (key : RecordKey) (body : Option Json) : Store :=
  match store.tables.records[key.kind]? with
  | none => store
  | some t => store.setTable key.kind (t.write key.id store.version body)

/-- Apply several writes under the version handed out last. -/
def putAll (store : Store) (writes : List (RecordKey × Option Json)) : Store :=
  writes.foldl (fun store w => store.set w.1 w.2) store

/-! ## Registered kinds -/

/-- A kind is registered if it is found by its name. -/
theorem isRegistered_eq (store : Store) (name : String) :
    store.isRegistered name = (store.kind? name).isSome := by
  rw [isRegistered, Std.ExtTreeMap.contains_eq_isSome_getElem?, kind?]

/-- A kind is registered if there is a table for it. -/
theorem isRegistered_eq_records (store : Store) (name : String) :
    store.isRegistered name = store.tables.records[name]?.isSome := by
  rw [isRegistered, ← store.tables.same_names, Std.ExtTreeMap.contains_eq_isSome_getElem?]

/-- A registered kind has a table. -/
theorem table_of_registered {name : String} (h : store.isRegistered name = true) :
    ∃ t, store.tables.records[name]? = some t ∧ store.table name = .ok t := by
  rw [isRegistered_eq_records] at h
  obtain ⟨t, ht⟩ := Option.isSome_iff_exists.1 h
  exact ⟨t, ht, by rw [table, ht]⟩

/-- There are no records of a kind that is not registered. -/
theorem records_of_not_registered {name : String} (h : store.isRegistered name = false) :
    store.tables.records[name]? = none := by
  rwa [isRegistered_eq_records, Option.isSome_eq_false_iff, Option.isNone_iff_eq_none] at h

/-- Without a table, the answer says which kind is missing. -/
theorem table_of_not_registered {name : String} (h : store.isRegistered name = false) :
    store.table name = .error (.kindNotRegistered name) := by
  rw [table, records_of_not_registered h]

/-- Stores with the same kind under every name list the same kinds. -/
theorem kinds_congr {s s' : Store} (h : ∀ name, s.kind? name = s'.kind? name) :
    s.kinds = s'.kinds := by
  have hkinds : s.tables.kinds = s'.tables.kinds := Std.ExtTreeMap.ext_getElem? h
  rw [kinds, hkinds, kinds]

/-- Registering a kind adds no record, and takes no version. -/
theorem register_eq {store' : Store} {kind : Kind}
    (h : store.register kind = .ok store') :
    (∀ key, store'.record? key = store.record? key) ∧ store'.version = store.version ∧
      ∀ name, store.isRegistered name = true → store'.isRegistered name = true := by
  unfold register at h
  split at h
  · cases h
  · next hreg =>
    obtain rfl := Except.ok.inj h
    refine ⟨fun key => ?_, rfl, fun name hname => ?_⟩
    · rw [record?, record?, Tables.register, Std.ExtTreeMap.getElem?_insert]
      split
      · -- the table of the kind is new, and there was none
        next hkind =>
        have hkey : kind.name = key.kind := Std.LawfulEqOrd.compare_eq_iff_eq.1 hkind
        have hfree : store.isRegistered key.kind = false := by
          rw [← hkey]
          exact Bool.eq_false_iff.2 hreg
        rw [records_of_not_registered hfree, Option.bind_some, Option.bind_none,
          Std.ExtTreeMap.getElem?_empty]
      · rfl
    · -- a name that was taken stays taken
      rw [isRegistered] at hname ⊢
      rw [Tables.register, Std.ExtTreeMap.contains_insert, hname, Bool.or_true]

/-! ## Reading -/

/-- A record can be read if its kind is registered. -/
theorem read_eq (store : Store) (key : RecordKey) :
    store.read key =
      if store.isRegistered key.kind then .ok (store.record? key)
      else .error (.kindNotRegistered key.kind) := by
  cases h : store.isRegistered key.kind with
  | false =>
    rw [read, table_of_not_registered h]
    rfl
  | true =>
    obtain ⟨t, ht, htable⟩ := table_of_registered h
    rw [read, htable, record?, ht]
    rfl

/-! ## Writing one record -/

/-- Setting a record takes no version. -/
@[simp] theorem version_set (store : Store) (key : RecordKey) (body : Option Json) :
    (store.set key body).version = store.version := by
  rw [set]
  split <;> rfl

/-- Setting a record registers nothing. -/
@[simp] theorem kind?_set (store : Store) (key : RecordKey) (body : Option Json) (name : String) :
    (store.set key body).kind? name = store.kind? name := by
  unfold set
  split <;> rfl

/-- Setting a record leaves the registered kinds as they are. -/
@[simp] theorem isRegistered_set (store : Store) (key : RecordKey) (body : Option Json)
    (name : String) : (store.set key body).isRegistered name = store.isRegistered name := by
  rw [isRegistered_eq, isRegistered_eq, kind?_set]

/-- A write changes the record that it is for. -/
private theorem getElem?_write (t : Table) (id id' : String) (version : UInt64)
    (body : Option Json) :
    (t.write id version body)[id']? =
      if id = id' then body.map (⟨version, ·⟩) else t[id']? := by
  cases body with
  | none =>
    rw [Table.write, Std.ExtTreeMap.getElem?_erase]
    simp only [Std.LawfulEqOrd.compare_eq_iff_eq, Option.map_none]
  | some body =>
    rw [Table.write, Std.ExtTreeMap.getElem?_insert]
    simp only [Std.LawfulEqOrd.compare_eq_iff_eq, Option.map_some]

/-- One write changes one record. -/
theorem record?_set (h : store.isRegistered key.kind = true) (body : Option Json)
    (k : RecordKey) :
    (store.set key body).record? k =
      if k = key then body.map (⟨store.version, ·⟩) else store.record? k := by
  obtain ⟨t, ht, -⟩ := table_of_registered h
  obtain ⟨kind, id⟩ := key
  obtain ⟨kind', id'⟩ := k
  simp only [set, ht, record?, setTable, Tables.put, Std.ExtTreeMap.getElem?_modify,
    Std.LawfulEqOrd.compare_eq_iff_eq, RecordKey.mk.injEq]
  -- only the table of the kind is put back, and in it only the record is another
  by_cases hkind : kind = kind'
  · subst hkind
    simp only [if_true, Option.map_some, Option.bind_some, getElem?_write, true_and, ht, eq_comm]
  · have hne : ¬ (kind' = kind ∧ id' = id) := fun hk => hkind hk.1.symm
    simp only [if_neg hkind, if_neg hne]

/-- A table is there, or its kind is not registered. -/
theorem table_eq (store : Store) (name : String) :
    (∃ t, store.tables.records[name]? = some t ∧ store.table name = .ok t ∧
        store.isRegistered name = true) ∨
      (store.table name = .error (.kindNotRegistered name) ∧
        store.isRegistered name = false) := by
  cases h : store.isRegistered name with
  | true =>
    obtain ⟨t, ht, htable⟩ := table_of_registered h
    exact .inl ⟨t, ht, htable, rfl⟩
  | false => exact .inr ⟨table_of_not_registered h, rfl⟩

/-- What a write of one record does: it tells whether the record was there, and sets it. -/
theorem write_eq (store : Store) (key : RecordKey) (body : Option Json) :
    store.write key body =
      if store.isRegistered key.kind then
        .ok ((store.record? key).isSome,
          (if body.isSome then store.nextVersion else store).set key body)
      else .error (.kindNotRegistered key.kind) := by
  rcases store.table_eq key.kind with ⟨t, ht, htable, hreg⟩ | ⟨htable, hreg⟩
  · have hexisted : (store.record? key).isSome = t.contains key.id := by
      rw [record?, ht, Option.bind_some, Std.ExtTreeMap.contains_eq_isSome_getElem?]
    rw [write, htable, hreg, hexisted, if_pos rfl, set]
    -- a body takes a new version, and a deletion does not
    cases body with
    | none => simp only [Option.isSome_none, Bool.false_eq_true, if_false, ht]
    | some body => simp only [Option.isSome_some, if_true, nextVersion, ht]
  · rw [write, htable, hreg]
    rfl

/-! ## Writing several records -/

/-- Putting records takes no version. -/
@[simp] theorem version_putAll (store : Store) (writes : List (RecordKey × Option Json)) :
    (store.putAll writes).version = store.version := by
  induction writes generalizing store with
  | nil => rfl
  | cons w writes ih => exact (ih _).trans (version_set store w.1 w.2)

/-- Putting records registers nothing. -/
@[simp] theorem kind?_putAll (store : Store) (writes : List (RecordKey × Option Json))
    (name : String) : (store.putAll writes).kind? name = store.kind? name := by
  induction writes generalizing store with
  | nil => rfl
  | cons w writes ih => exact (ih _).trans (kind?_set store w.1 w.2 name)

/-- Writes under registered kinds are all applied. -/
theorem writeAll_eq (store : Store) (writes : List (RecordKey × Option Json))
    (h : ∀ w ∈ writes, store.isRegistered w.1.kind = true) :
    store.writeAll writes = (.ok (), store.putAll writes) := by
  -- along the writes; each of them leaves the kinds registered for those behind it
  induction writes generalizing store with
  | nil => rfl
  | cons w writes ih =>
    obtain ⟨key, body⟩ := w
    obtain ⟨t, ht, htable⟩ := table_of_registered (h (key, body) List.mem_cons_self)
    have hset : store.setTable key.kind (t.write key.id store.version body) =
        store.set key body := by rw [set, ht]
    rw [writeAll, htable]
    simp only [hset]
    rw [ih (store.set key body) fun w hw => ?_]
    · rfl
    · rw [isRegistered_set]
      exact h w (List.mem_cons_of_mem _ hw)

/-- Putting records leaves those alone that are not named. -/
private theorem record?_putAll_of_not_mem {writes : List (RecordKey × Option Json)}
    (h : ∀ w ∈ writes, store.isRegistered w.1.kind = true) {k : RecordKey}
    (hk : ∀ body, (k, body) ∉ writes) : (store.putAll writes).record? k = store.record? k := by
  -- the first write is for another record, and so are those behind it
  induction writes generalizing store with
  | nil => rfl
  | cons w writes ih =>
    have hne : ¬ k = w.1 := by
      rintro rfl
      exact hk w.2 List.mem_cons_self
    show ((store.set w.1 w.2).putAll writes).record? k = _
    rw [ih (fun w' hw => ?_) (fun body hb => hk body (List.mem_cons_of_mem w hb)),
      record?_set (h w List.mem_cons_self), if_neg hne]
    rw [isRegistered_set]
    exact h w' (List.mem_cons_of_mem w hw)

/-- A record that is put has the body that was given and the version of the store. -/
private theorem record?_putAll_of_mem {writes : List (RecordKey × Option Json)}
    (h : ∀ w ∈ writes, store.isRegistered w.1.kind = true)
    (hdistinct : writes.Pairwise fun a b => a.1 ≠ b.1) {k : RecordKey} {body : Option Json}
    (hk : (k, body) ∈ writes) :
    (store.putAll writes).record? k = body.map (⟨store.version, ·⟩) := by
  induction writes generalizing store with
  | nil => exact absurd hk List.not_mem_nil
  | cons w writes ih =>
    obtain ⟨hw, hdistinct⟩ := List.pairwise_cons.1 hdistinct
    have hreg : ∀ w' ∈ writes, (store.set w.1 w.2).isRegistered w'.1.kind = true := by
      intro w' hw'
      rw [isRegistered_set]
      exact h w' (List.mem_cons_of_mem w hw')
    show ((store.set w.1 w.2).putAll writes).record? k = _
    rcases List.mem_cons.1 hk with rfl | hk
    · -- the writes behind the first one are to other records
      rw [record?_putAll_of_not_mem hreg fun body hb => hw _ hb rfl,
        record?_set (h _ List.mem_cons_self), if_pos rfl]
    · rw [ih hreg hdistinct hk, version_set]

/-- A set of writes changes the records that it names. -/
theorem record?_putAll (writes : WriteSet)
    (h : ∀ k, k ∈ writes → store.isRegistered k.kind = true) (k : RecordKey) :
    (store.putAll writes.toList).record? k =
      match writes[k]? with
      | none => store.record? k
      | some body => body.map (⟨store.version, ·⟩) := by
  -- every write of the set lies under a registered kind
  have hreg : ∀ w ∈ writes.toList, store.isRegistered w.1.kind = true := by
    intro w hw
    have hsome := Std.ExtTreeMap.mem_toList_iff_getElem?_eq_some.1 hw
    exact h w.1 (Std.ExtTreeMap.mem_iff_isSome_getElem?.2 (by rw [hsome]; rfl))
  -- a key stands in the set once, so one write decides, or none
  cases hk : writes[k]? with
  | none =>
    apply record?_putAll_of_not_mem hreg
    intro body hb
    rw [Std.ExtTreeMap.mem_toList_iff_getElem?_eq_some.1 hb] at hk
    cases hk
  | some body =>
    refine record?_putAll_of_mem hreg ?_ (Std.ExtTreeMap.mem_toList_iff_getElem?_eq_some.2 hk)
    apply Std.ExtTreeMap.distinct_keys_toList.imp
    intro a b hne
    rwa [Std.LawfulEqOrd.compare_eq_iff_eq] at hne

end Store

end EntityStore
