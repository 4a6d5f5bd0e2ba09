import EntityStore.Proofs.Collection.Partition
import EntityStore.Proofs.System.Run

/-! # A collection as a finite map

As long as only one collection changes the entities of a kind, and none but outside of
transactions, its answers are those of a map from ids to entities.  What else is done to the
store, by clients, registries or other collections, does not matter.

* `MapCall`                   the calls of a collection that a map can answer as well
* `MapCall.answer`            what a map answers
* `MapCall.move`              what becomes of the map
* `Collection.Represents`     a store that holds the entities of a map
* `Collection.represents_on`  one call, on the store and on the map
* `System.represents_run`     any number of calls, with others in between
* `System.finite_map`         the answers of the collection are those of the map -/

namespace EntityStore

variable {α : Type}

/-! ## Calls -/

/-- A call of a collection outside of transactions and without pages, with the type of its
    answer. -/
inductive MapCall (α : Type) : Type → Type where
  | put (entity : α) : MapCall α Unit
  | get (id : String) : MapCall α (Option α)
  | delete (id : String) : MapCall α Bool
  | findAll : MapCall α (List α)
  | find (pred : α → Bool) : MapCall α (Results α)

namespace MapCall

variable {β : Type}

/-- The call of a collection. -/
def call (c : Collection α) : MapCall α β → Call β
  | .put entity => .access (.put c entity)
  | .get id => .access (.get c id)
  | .delete id => .access (.delete c id)
  | .findAll => .findAll c
  | .find pred => .access (.find c none pred)

/-- Make the call on a store. -/
def on (c : Collection α) : MapCall α β → Store → Except Error β × Store
  | .put entity, store => c.put store entity
  | .get id, store => c.get store id
  | .delete id, store => c.delete store id
  | .findAll, store => c.findAll store
  | .find pred, store => c.find store none pred

/-- The call concerns the store alone. -/
theorem call?_call (c : Collection α) (q : MapCall α β) (w : System) :
    w.call? (q.call c) = some ((q.on c w.store).1, { w with store := (q.on c w.store).2 }) := by
  cases q <;> rfl

/-- What a map from ids to entities answers.  An entity that has no body is refused. -/
def answer (type : EntityType α) (m : Std.ExtTreeMap String α) : MapCall α β → Except Error β
  | .put entity =>
    match type.encode entity with
    | .ok _ => .ok ()
    | .error cause => .error (.serialization cause)
  | .get id => .ok m[id]?
  | .delete id => .ok (m.contains id)
  | .findAll => .ok (m.toList.map Prod.snd)
  | .find pred => .ok ⟨(m.toList.map Prod.snd).filter pred, none⟩

/-- What becomes of the map. -/
def move (type : EntityType α) (m : Std.ExtTreeMap String α) :
    MapCall α β → Std.ExtTreeMap String α
  | .put entity =>
    match type.encode entity with
    | .ok _ => m.insert (type.id entity) entity
    | .error _ => m
  | .delete id => m.erase id
  | _ => m

end MapCall

/-! ## Stores and maps -/

namespace Collection

/-- A store holds the entities of a map, each one under its id. -/
structure Represents (c : Collection α) (m : Std.ExtTreeMap String α) (store : Store) : Prop where
  isRegistered : store.isRegistered c.type.kindName = true
  rel : ∀ id : String,
    Option.Rel (fun entity r => c.type.id entity = id ∧ c.type.encode entity = .ok r.body)
      m[id]? (store.record? ⟨c.type.kindName, id⟩)

variable {c : Collection α} {m : Std.ExtTreeMap String α} {store : Store}

/-- A store without entities of the kind. -/
theorem represents_empty (h : store.size c.type.kindName = .ok 0) : c.Represents ∅ store := by
  cases hreg : store.isRegistered c.type.kindName with
  | false =>
    rw [Store.size, Store.table_of_not_registered hreg] at h
    cases h
  | true =>
    refine ⟨hreg, fun id => ?_⟩
    obtain ⟨t, ht, htable⟩ := Store.table_of_registered hreg
    rw [Store.size, htable] at h
    -- a table without records has none under any id
    have hempty : t = ∅ :=
      Std.ExtTreeMap.eq_empty_iff_size_eq_zero.2 (Except.ok.inj h)
    rw [Std.ExtTreeMap.getElem?_empty, Store.record?, ht, Option.bind_some, hempty,
      Std.ExtTreeMap.getElem?_empty]
    exact .none

/-- A store with the same table for the kind. -/
theorem Represents.congr {store' : Store} (h : c.Represents m store)
    (htable : store'.tables.records[c.type.kindName]? =
      store.tables.records[c.type.kindName]?) :
    c.Represents m store' := by
  refine ⟨?_, fun id => ?_⟩
  · have hreg := h.isRegistered
    rw [Store.isRegistered_eq_records] at hreg ⊢
    rw [htable, hreg]
  · have hrel := h.rel id
    rw [Store.record?] at hrel ⊢
    rwa [htable]

/-- The entities of the map are bound to their ids. -/
theorem Represents.id_eq (h : c.Represents m store) {id : String} {entity : α}
    (hm : m[id]? = some entity) : c.type.id entity = id := by
  have hrel := h.rel id
  rw [hm] at hrel
  generalize store.record? _ = record at hrel
  cases hrel with
  | some hentity => exact hentity.1

/-- One record is put or taken away, and so is one entity. -/
theorem Represents.set (h : c.Represents m store) {m' : Std.ExtTreeMap String α} {id : String}
    {body : Option Json}
    (hm' : ∀ id' : String, id' ≠ id → m'[id']? = m[id']?)
    (hid : Option.Rel (fun entity body => c.type.id entity = id ∧ c.type.encode entity = .ok body)
      m'[id]? body) :
    c.Represents m' (store.set ⟨c.type.kindName, id⟩ body) := by
  refine ⟨by rw [Store.isRegistered_set, h.isRegistered], fun id' => ?_⟩
  have hrecord := Store.record?_set (show store.isRegistered
    (RecordKey.mk c.type.kindName id).kind = true from h.isRegistered) body ⟨c.type.kindName, id'⟩
  rw [hrecord]
  -- the record of the id is the one that was set, and the others are as they were
  by_cases hkey : id' = id
  · subst hkey
    rw [if_pos rfl]
    generalize m'[id']? = entity at hid
    cases hid with
    | none => exact .none
    | some hentity => exact .some hentity
  · rw [if_neg fun heq => hkey (RecordKey.mk.inj heq).2, hm' id' hkey]
    exact h.rel id'

section

variable (hcodec : ∀ entity body, c.type.encode entity = .ok body → c.type.decode body = .ok entity)

include hcodec

/-- The records of the kind are the entities of the map. -/
theorem Represents.holds_iff (h : c.Represents m store) (id : String) (entity : α) :
    (∃ r, store.record? ⟨c.type.kindName, id⟩ = some r ∧ c.type.decode r.body = .ok entity) ↔
      m[id]? = some entity := by
  have hrel := h.rel id
  generalize m[id]? = found, store.record? ⟨c.type.kindName, id⟩ = record at hrel
  -- a record under the id, or none, goes with an entity of the map, or none
  cases hrel with
  | none => simp
  | @some entity' r hentity =>
    have hdecode := hcodec _ _ hentity.2
    constructor
    · rintro ⟨r', ⟨⟩, hr'⟩
      rw [Except.ok.inj (hdecode.symm.trans hr')]
    · rintro ⟨⟩
      exact ⟨r, rfl, hdecode⟩

/-- The records of a kind that is represented are entities. -/
theorem Represents.decodes (h : c.Represents m store) : c.Decodes store := by
  intro id r hr
  have hrel := h.rel id
  rw [hr] at hrel
  generalize m[id]? = found at hrel
  cases hrel with
  | some hentity => exact ⟨_, hcodec _ _ hentity.2⟩

/-- What is found are the entities of the map that satisfy the predicate, in the order of
    their ids. -/
theorem Represents.find_eq (h : c.Represents m store) (pred : α → Bool) :
    c.find store none pred = (.ok ⟨(m.toList.map Prod.snd).filter pred, none⟩, store) := by
  obtain ⟨rows, hrows, hfind⟩ : ∃ rows, c.IsMatching pred store none rows ∧
      c.find store none pred = (.ok ⟨rows.map Row.entity, none⟩, store) :=
    find_none h.isRegistered (h.decodes hcodec)
  -- the rows and the entries of the map are sorted by their ids, and the same
  have hentries : rows.map (fun row => (row.id, row.entity)) =
      m.toList.filter fun p => pred p.2 := by
    refine eq_of_sorted (f := Prod.fst) (List.pairwise_map.2 hrows.sorted)
      ((Session.pairwise_toList m).filter _) fun p => ?_
    -- both lists hold what the collection holds and the predicate accepts
    have hholds := (hrows.holds_iff p.1 p.2).trans (and_iff_right nofun)
    rw [List.mem_map, List.mem_filter, Std.ExtTreeMap.mem_toList_iff_getElem?_eq_some,
      ← h.holds_iff hcodec]
    simp only [Prod.ext_iff]
    rw [hholds]
    simp only [Holds, ← and_assoc, exists_and_right]
  have hitems := congrArg (List.map Prod.snd) hentries
  rw [List.map_map] at hitems
  rw [hfind, List.filter_map]
  exact congrArg (fun items => (Except.ok (Results.mk items none), store)) hitems

/-- One call of the collection, on the store and on the map. -/
theorem represents_on (h : c.Represents m store) {β : Type} (q : MapCall α β) :
    (q.on c store).1 = q.answer c.type m ∧
      c.Represents (q.move c.type m) (q.on c store).2 := by
  cases q with
  | put entity =>
    simp only [MapCall.on, MapCall.answer, MapCall.move, put, runPlain, putOn,
      Session.save_plain, h.isRegistered, if_true]
    cases hencode : c.type.encode entity with
    | error cause => exact ⟨rfl, h⟩
    | ok body =>
      -- the version that is taken is in no table
      have hnext : c.Represents m store.nextVersion := h.congr rfl
      refine ⟨rfl, hnext.set (fun id hid => ?_) ?_⟩
      · rw [Std.ExtTreeMap.getElem?_insert,
          if_neg fun heq => hid (Std.LawfulEqOrd.compare_eq_iff_eq.1 heq).symm]
      · rw [Std.ExtTreeMap.getElem?_insert_self]
        exact .some ⟨rfl, hencode⟩
  | get id =>
    simp only [MapCall.on, MapCall.answer, MapCall.move, get, runPlain, getOn, Outcome.map,
      Session.load_plain, h.isRegistered, if_true]
    refine ⟨?_, h⟩
    have hrel := h.rel id
    generalize m[id]? = found, store.record? ⟨c.type.kindName, id⟩ = record at hrel ⊢
    cases hrel with
    | none => rfl
    | some hentity =>
      -- the body of the record is read back
      rw [Session.decodeFound, EntityType.decodeRow, hcodec _ _ hentity.2]
      rfl
  | delete id =>
    simp only [MapCall.on, MapCall.answer, MapCall.move, delete, runPlain, deleteOn,
      Session.delete_plain, h.isRegistered, if_true]
    refine ⟨?_, h.set (fun id' hid => ?_) ?_⟩
    · -- there is a record just if the id is bound
      have hrel := h.rel id
      rw [Std.ExtTreeMap.contains_eq_isSome_getElem?]
      generalize m[id]? = found, store.record? ⟨c.type.kindName, id⟩ = record at hrel ⊢
      cases hrel <;> rfl
    · rw [Std.ExtTreeMap.getElem?_erase,
        if_neg fun heq => hid (Std.LawfulEqOrd.compare_eq_iff_eq.1 heq).symm]
    · rw [Std.ExtTreeMap.getElem?_erase_self]
      exact .none
  -- queries change nothing
  | findAll =>
    have hfind := h.find_eq hcodec fun _ => true
    simp only [MapCall.on, MapCall.answer, MapCall.move, findAll, hfind]
    exact ⟨congrArg Except.ok (List.filter_true _), h⟩
  | find pred =>
    have hfind := h.find_eq hcodec pred
    exact ⟨congrArg Prod.fst hfind, congrArg Prod.snd hfind ▸ h⟩

end

/-- A call that is refused changes nothing. -/
theorem Represents.store_of_error (h : c.Represents m store) {β : Type} {q : MapCall α β}
    {e : Error} (herror : q.answer c.type m = .error e) : (q.on c store).2 = store := by
  cases q with
  | put entity =>
    simp only [MapCall.answer] at herror
    simp only [MapCall.on, put, runPlain, putOn, Session.save_plain, h.isRegistered, if_true]
    cases hencode : c.type.encode entity with
    | error cause => rfl
    | ok body =>
      rw [hencode] at herror
      cases herror
  -- the other calls are not refused in a map
  | _ => cases herror

/-- The entities of the map come in the byte order of their ids, each one once. -/
theorem Represents.pairwise_entities (h : c.Represents m store) :
    (m.toList.map Prod.snd).Pairwise
      fun a b => Utf8.encode (c.type.id a) < Utf8.encode (c.type.id b) := by
  rw [List.pairwise_map]
  refine (Session.pairwise_toList m).imp_of_mem fun {p q} hp hq hlt => ?_
  rw [h.id_eq (Std.ExtTreeMap.mem_toList_iff_getElem?_eq_some.1 hp),
    h.id_eq (Std.ExtTreeMap.mem_toList_iff_getElem?_eq_some.1 hq), Utf8.encode_lt_encode_iff]
  exact hlt

/-- The entities of a map are those that it has under their own ids. -/
theorem Represents.mem_entities (h : c.Represents m store) (entity : α) :
    entity ∈ m.toList.map Prod.snd ↔ m[c.type.id entity]? = some entity := by
  rw [List.mem_map]
  constructor
  · rintro ⟨⟨id, entity⟩, hmem, rfl⟩
    have hm := Std.ExtTreeMap.mem_toList_iff_getElem?_eq_some.1 hmem
    rwa [h.id_eq hm]
  · intro hm
    exact ⟨(_, entity), Std.ExtTreeMap.mem_toList_iff_getElem?_eq_some.2 hm, rfl⟩

end Collection

/-! ## Turns -/

/-- A call of the collection, or any other one in between. -/
inductive Turn (α : Type) : Type 1 where
  | call {β : Type} (q : MapCall α β)
  | other (r : Request)

/-- The call that is made. -/
def Turn.request (c : Collection α) : Turn α → Request
  | .call q => ⟨q.call c⟩
  | .other r => r

/-- What becomes of a map in the course of some turns. -/
def Turn.moveAll (type : EntityType α) (m : Std.ExtTreeMap String α) :
    List (Turn α) → Std.ExtTreeMap String α
  | [] => m
  | .call q :: turns => moveAll type (q.move type m) turns
  | .other _ :: turns => moveAll type m turns

namespace System

variable {c : Collection α} {w : System}

/-- Only the collection changes the table of its kind; all other calls leave it as it is. -/
def ChangedOnlyBy (w : System) (c : Collection α) : List (Turn α) → Prop
  | [] => True
  | .call q :: turns => (w.step ⟨q.call c⟩).ChangedOnlyBy c turns
  | .other r :: turns =>
    (w.step r).store.tables.records[c.type.kindName]? =
        w.store.tables.records[c.type.kindName]? ∧
      (w.step r).ChangedOnlyBy c turns

/-- Some turns, in the system and on the map. -/
theorem represents_run
    (hcodec : ∀ entity body, c.type.encode entity = .ok body → c.type.decode body = .ok entity)
    {m : Std.ExtTreeMap String α} (h : c.Represents m w.store) {turns : List (Turn α)}
    (honly : w.ChangedOnlyBy c turns) :
    c.Represents (Turn.moveAll c.type m turns) (w.run (turns.map (Turn.request c))).store := by
  induction turns generalizing w m with
  | nil => exact h
  | cons turn turns ih =>
    cases turn with
    | call q =>
      -- the call moves the store on, and nothing else of the system
      have hstep : w.step ⟨q.call c⟩ = { w with store := (q.on c w.store).2 } :=
        step_of_some (r := ⟨q.call c⟩) (q.call?_call c w)
      refine ih ?_ honly
      rw [Turn.request, hstep]
      exact (Collection.represents_on hcodec h q).2
    | other r => exact ih (h.congr honly.1) honly.2

/-- A collection is a finite map.  Its kind has no entities at first, and is changed by the
    collection alone, outside of transactions.  Then behind any calls, whatever is done between
    them, each call of the collection is answered as the map answers it, and changes nothing if
    it is refused.  The entities of the map are those that are bound to their own ids, by
    ascending byte order of the ids, each one once. -/
theorem finite_map
    (hcodec : ∀ entity body, c.type.encode entity = .ok body → c.type.decode body = .ok entity)
    (hempty : w.store.size c.type.kindName = .ok 0) {turns : List (Turn α)}
    (honly : w.ChangedOnlyBy c turns) :
    (∀ (β : Type) (q : MapCall α β), ∃ w',
      (w.run (turns.map (Turn.request c))).call? (q.call c) =
        some (q.answer c.type (Turn.moveAll c.type ∅ turns), w') ∧
      ∀ e, q.answer c.type (Turn.moveAll c.type ∅ turns) = .error e →
        w' = w.run (turns.map (Turn.request c))) ∧
    ((Turn.moveAll c.type ∅ turns).toList.map Prod.snd).Pairwise
      (fun a b => Utf8.encode (c.type.id a) < Utf8.encode (c.type.id b)) ∧
    ∀ entity, entity ∈ (Turn.moveAll c.type ∅ turns).toList.map Prod.snd ↔
      (Turn.moveAll c.type ∅ turns)[c.type.id entity]? = some entity := by
  have h := represents_run hcodec (Collection.represents_empty hempty) honly
  refine ⟨fun β q => ?_, h.pairwise_entities, h.mem_entities⟩
  have hcall := q.call?_call c (w.run (turns.map (Turn.request c)))
  -- the collection and the map answer each call alike
  rw [(Collection.represents_on hcodec h q).1] at hcall
  refine ⟨_, hcall, fun e herror => ?_⟩
  rw [h.store_of_error herror]

/-- Tallies, under their ids.  A tally that is too large has no body. -/
def tally : EntityType (String × Nat) where
  kind := ⟨"Tally", "tallies::Tally"⟩
  id := Prod.fst
  encode t :=
    if t.2 < UInt64.size then .ok (.arr [.str t.1, .int t.2]) else .error .numberOutOfRange
  decode
    | .arr [.str id, .int n] => .ok (id, n.toNat)
    | body => .error (.invalidType body "a tally")

/-- Tallies are put, replaced, refused and deleted, and another kind is registered. -/
def counted : List (Turn (String × Nat)) :=
  [.call (.put ("é", 1)), .call (.put ("z", 2)), .other ⟨.store (.register ⟨"Tag", "Tag"⟩)⟩,
    .call (.put ("z", UInt64.size)), .call (.put ("é", 3)), .call (.delete "a"),
    .call (.put ("a", 4)), .call (.delete "z"), .call (.put ("z", 5))]

/-- Some entities are put, replaced and deleted; the others are listed by the bytes of their ids.
    -/
theorem finite_map_counted :
    ∃ w', ((init.step ⟨.store (.register tally.kind)⟩).run
        (counted.map (Turn.request ⟨tally, {}⟩))).call? (.findAll ⟨tally, {}⟩) =
      some (.ok [("a", 4), ("z", 5), ("é", 3)], w') := by
  have hempty : (init.step ⟨.store (.register tally.kind)⟩).store.size "Tally" = .ok 0 := by
    rfl
  -- a tally is read back if it could be written
  have hcodec : ∀ entity body, tally.encode entity = .ok body → tally.decode body = .ok entity := by
    rintro ⟨id, n⟩ body h
    simp only [tally] at h
    split at h
    · obtain rfl := Except.ok.inj h
      rfl
    · cases h
  have honly : (init.step ⟨.store (.register tally.kind)⟩).ChangedOnlyBy ⟨tally, {}⟩ counted :=
    ⟨by rfl, trivial⟩
  obtain ⟨hanswers, -⟩ := finite_map (c := ⟨tally, {}⟩) hcodec hempty honly
  obtain ⟨w', hcall, -⟩ := hanswers _ .findAll
  have hitems : (Turn.moveAll tally ∅ counted).toList.map Prod.snd =
      [("a", 4), ("z", 5), ("é", 3)] := by decide +kernel
  rw [MapCall.answer, hitems] at hcall
  exact ⟨w', hcall⟩

end System

end EntityStore
