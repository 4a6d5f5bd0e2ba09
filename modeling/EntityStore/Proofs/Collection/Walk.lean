import EntityStore.Collection
import EntityStore.Proofs.Page.Position
import EntityStore.Proofs.Query.Search
import EntityStore.Proofs.Session.Rows
import EntityStore.Proofs.Session.Run
import EntityStore.Proofs.Text.ByteOrder

/-! # Walks from page to page

A walk asks for a first page, and then for the page behind each page that it was given, while
others write to the store in between.  A cursor names the id of the next entity that matched
when the page in front of it was made, so every page covers the matching entities from its
cursor up to the next one, whatever has become of the records by then.

* `Collection.walk`         a walk, with steps of any sessions between its pages
* `Collection.find_page`    one page: the matching entities from an id on, up to its size
* `Collection.covers_cons`  a page covers what lies in front of the page behind it
* `Collection.walk_from`    what a walk returns from an id on
* `Collection.walk_exact`   a walk repeats nothing and misses nothing that stays -/

namespace EntityStore

/-- The stores at the moments in front of and between some bursts of steps. -/
def World.moments (w : World) : List (List Step) → List Store
  | [] => [w.store]
  | burst :: bursts => w.store :: (w.run burst).moments bursts

/-- A page of a walk: the store when it was made, what was returned, and the ids of the records
    that the items come from. -/
structure Visit (α : Type) where
  store : Store
  results : Results α
  ids : List String

/-- Where the page behind a visited one starts, if there is one. -/
def Visit.next? {α : Type} (v : Visit α) : Option Cursor := v.results.page.bind Page.next

namespace Collection

variable {α : Type}

/-- Walk from page to page as long as there is one behind, with a burst of steps in between.
    The walk also ends when there are no bursts left. -/
def walk (c : Collection α) (pred : α → Bool) (request : Page) (w : World) :
    List (List Step) → Except Error (List (Results α))
  | [] => (c.find w.store (some request) pred).1.map fun results => [results]
  | burst :: bursts =>
    match c.find w.store (some request) pred with
    | (.error e, _) => .error e
    | (.ok results, store) =>
      match results.page.bind Page.following? with
      | none => .ok [results]
      | some next =>
        (c.walk pred next (World.run { w with store } burst) bursts).map (results :: ·)

/-- A store holds an entity that satisfies a predicate under an id. -/
def Holds (c : Collection α) (pred : α → Bool) (store : Store) (id : String) (entity : α) : Prop :=
  ∃ r, store.record? ⟨c.type.kindName, id⟩ = some r ∧ c.type.decode r.body = .ok entity ∧
    pred entity = true

/-- Every body of the kind in a store can be read as an entity. -/
def Decodes (c : Collection α) (store : Store) : Prop :=
  ∀ id r, store.record? ⟨c.type.kindName, id⟩ = some r → ∃ entity, c.type.decode r.body = .ok entity

variable {c : Collection α} {pred : α → Bool}

/-- The entities of a collection decode if those in its table do, so this can be evaluated. -/
private theorem decodes_iff {store : Store} :
    c.Decodes store ↔ ∀ t ∈ store.tables.records[c.type.kindName]?, ∀ p ∈ t.toList,
      (c.type.decode p.2.body).isOk = true := by
  have hisOk : ∀ body, (c.type.decode body).isOk = true ↔
      ∃ entity, c.type.decode body = .ok entity := fun body => by
    cases c.type.decode body <;> simp [Except.isOk, Except.toBool]
  simp only [hisOk]
  constructor
  · -- the records of the kind are those in its table
    rintro h t ht ⟨id, r⟩ hr
    refine h id r ?_
    rw [Store.record?, Option.mem_def.1 ht]
    exact Std.ExtTreeMap.mem_toList_iff_getElem?_eq_some.1 hr
  · intro h id r hr
    obtain ⟨t, ht, hr⟩ := Option.bind_eq_some_iff.1 hr
    exact h t ht (id, r) (Std.ExtTreeMap.mem_toList_iff_getElem?_eq_some.2 hr)

instance (c : Collection α) (store : Store) : Decidable (c.Decodes store) :=
  decidable_of_iff _ decodes_iff.symm

/-! ## One page -/

/-- The request for a page that starts at an id, or for the first page. -/
def pageFrom (c : Collection α) (size : UInt32) (start : Option String) : Page :=
  { size, current := start.map fun id => (Position.before c.type.kindName id).encode }

/-- A query that is opened where a page starts has the rows from there on. -/
private theorem query_pageFrom (store : Store) (size : UInt32) (start : Option String)
    {rows : List (Row α)} (h : Session.plain.rowsFrom store c.type start = .ok rows) :
    Session.plain.query store c.type (c.pageFrom size start).current =
      .ok ⟨c.type.kindName, rows⟩ := by
  cases start with
  | none =>
    simp only [pageFrom, Option.map_none, Session.query, h]
    rfl
  | some id =>
    -- the cursor gives back the id it was made of
    have hdecode := Position.decodeFor_encode (Position.before c.type.kindName id)
    rw [show (Position.before c.type.kindName id).kind = c.type.kindName from rfl] at hdecode
    simp only [pageFrom, Option.map_some, Session.query, hdecode, bind, Except.bind]
    simp only [Position.before, h]
    rfl

/-- A page that starts at an id is searched for in the rows from there on. -/
theorem find_pageFrom {store : Store} {size : UInt32} (hsize : size ≤ c.setup.config.maxPageSize)
    {start : Option String} {rows : List (Row α)}
    (hrows : Session.plain.rowsFrom store c.type start = .ok rows) (pred : α → Bool) :
    c.find store (some (c.pageFrom size start)) pred =
      (.ok ((Query.mk c.type.kindName rows).search (some (c.pageFrom size start)) pred),
        store) := by
  have hcheck : c.setup.config.checkPageSize (some (c.pageFrom size start)) = .ok () := by
    rw [Config.checkPageSize]
    exact if_neg (UInt32.not_lt.2 hsize)
  have hquery := query_pageFrom store size start hrows
  simp only [find, runPlain, findOn, hcheck, Option.bind_some, hquery, bind, Except.bind]
  rfl

/-- A page holds the first of the rows that match from an id on, and names the first that is
    left as the place where the page behind it starts. -/
structure IsPage (c : Collection α) (pred : α → Bool) (start : Option String) (size : UInt32)
    (store : Store) (rows : List (Row α)) (results : Results α) : Prop where
  sorted : rows.Pairwise fun a b => a.id < b.id
  start_le : ∀ row ∈ rows, ∀ s ∈ start, s ≤ row.id
  holds : ∀ row ∈ rows, c.Holds pred store row.id row.entity
  complete : ∀ id entity, (∀ s ∈ start, s ≤ id) → c.Holds pred store id entity →
    ∃ row ∈ rows, row.id = id
  items_eq : results.items = (rows.take size.toNat).map Row.entity
  following?_eq : results.page.bind Page.following? =
    (rows.drop size.toNat).head?.map fun row => c.pageFrom size (some row.id)

/-- A page of a collection whose entities decode is found, and is a page of that store. -/
theorem find_page {store : Store} {size : UInt32} (hsize : size ≤ c.setup.config.maxPageSize)
    (hregistered : store.isRegistered c.type.kindName = true) (hdecodes : c.Decodes store)
    (pred : α → Bool) (start : Option String) :
    ∃ rows results, c.find store (some (c.pageFrom size start)) pred = (.ok results, store) ∧
      c.IsPage pred start size store rows results := by
  obtain ⟨all, hall, hsorted, hmem⟩ := Session.rowsFrom_plain hregistered hdecodes start
  have hfind := find_pageFrom hsize hall pred
  have hmatch : ∀ row : Row α, row ∈ all.filter (fun row => pred row.entity) ↔
      (row ∈ all ∧ pred row.entity = true) := fun row => List.mem_filter
  refine ⟨all.filter fun row => pred row.entity, _, hfind, hsorted.filter _, ?_, ?_, ?_, ?_, ?_⟩
  · intro row hrow
    exact ((hmem row).1 ((hmatch row).1 hrow).1).1
  · intro row hrow
    obtain ⟨hrow, hpred⟩ := (hmatch row).1 hrow
    obtain ⟨-, r, hr, hof⟩ := (hmem row).1 hrow
    exact ⟨r, hr, hof.decode_eq, hpred⟩
  · rintro id entity hstart ⟨r, hr, hdecode, hpred⟩
    -- the record is one of the rows that are searched
    have hrow : (⟨id, r.version, entity⟩ : Row α) ∈ all :=
      (hmem _).2 ⟨hstart, r, hr, rfl, rfl, hdecode⟩
    exact ⟨_, (hmatch _).2 ⟨hrow, hpred⟩, rfl⟩
  · -- the items are the first of the rows, and the next is named by what follows them
    rw [Query.search_some]
    rfl
  · rw [Query.following?_search]
    rfl

/-! ## Several pages -/

/-- The visit of a page. -/
def visit (store : Store) (size : UInt32) (rows : List (Row α)) (results : Results α) : Visit α :=
  ⟨store, results, (rows.take size.toNat).map Row.id⟩

/-- What the visits of a walk from an id on amount to. -/
structure Covers (c : Collection α) (pred : α → Bool) (start : Option String)
    (visits : List (Visit α)) : Prop where
  sorted : (visits.flatMap Visit.ids).Pairwise fun a b => a < b
  start_le : ∀ id ∈ visits.flatMap Visit.ids, ∀ s ∈ start, s ≤ id
  holds : ∀ v ∈ visits, List.Forall₂ (c.Holds pred v.store) v.ids v.results.items
  complete : (∃ v ∈ visits, v.next? = none) → ∀ id, (∀ s ∈ start, s ≤ id) →
    (∀ v ∈ visits, ∃ entity, c.Holds pred v.store id entity) → id ∈ visits.flatMap Visit.ids

variable {start : Option String} {size : UInt32} {store : Store} {rows : List (Row α)}
  {results : Results α}

/-- There is a request for the page behind just if there is a cursor for it. -/
private theorem following?_eq_none_iff {v : Visit α} :
    v.results.page.bind Page.following? = none ↔ v.next? = none := by
  rw [Visit.next?]
  cases v.results.page with
  | none => exact ⟨fun _ => rfl, fun _ => rfl⟩
  | some page => rw [Option.bind_some, Option.bind_some, Page.following?, Option.map_eq_none_iff]

/-- The ids on a page are in order. -/
private theorem sorted_visit (h : c.IsPage pred start size store rows results) :
    (visit store size rows results).ids.Pairwise fun a b => a < b :=
  List.pairwise_map.2 (h.sorted.sublist (List.take_sublist ..))

/-- No id on a page comes before the page's start. -/
private theorem start_le_visit (h : c.IsPage pred start size store rows results) :
    ∀ id ∈ (visit store size rows results).ids, ∀ s ∈ start, s ≤ id := by
  intro id hid
  obtain ⟨row, hrow, rfl⟩ := List.mem_map.1 hid
  exact h.start_le row (List.mem_of_mem_take hrow)

/-- Every item of a page is held by the store that the page was read from. -/
private theorem holds_visit (h : c.IsPage pred start size store rows results) :
    List.Forall₂ (c.Holds pred store) (visit store size rows results).ids results.items := by
  rw [h.items_eq, visit, List.forall₂_map_left_iff, List.forall₂_map_right_iff,
    List.forall₂_same]
  exact fun row hrow => h.holds row (List.mem_of_mem_take hrow)

/-- A page ends in front of the row that it names as the next. -/
private theorem lt_next (h : c.IsPage pred start size store rows results) {row : Row α}
    (hrow : (rows.drop size.toNat).head? = some row) :
    ∀ id ∈ (visit store size rows results).ids, id < row.id := by
  intro id hid
  obtain ⟨row', hrow', rfl⟩ := List.mem_map.1 hid
  obtain ⟨left, hleft⟩ := List.head?_eq_some_iff.1 hrow
  have hsorted := h.sorted
  rw [← List.take_append_drop size.toNat rows, hleft] at hsorted
  exact (List.pairwise_append.1 hsorted).2.2 row' hrow' row List.mem_cons_self

/-- What matches in front of the row that is named as the next is on the page. -/
private theorem mem_visit_of_lt (h : c.IsPage pred start size store rows results) {row : Row α}
    (hrow : (rows.drop size.toNat).head? = some row) {id : String} (hstart : ∀ s ∈ start, s ≤ id)
    {entity : α} (hentity : c.Holds pred store id entity) (hid : ¬ row.id ≤ id) :
    id ∈ (visit store size rows results).ids := by
  obtain ⟨row', hrow', rfl⟩ := h.complete id entity hstart hentity
  obtain ⟨left, hleft⟩ := List.head?_eq_some_iff.1 hrow
  have hsorted := h.sorted
  rw [← List.take_append_drop size.toNat rows, hleft] at hrow' hsorted
  rcases List.mem_append.1 hrow' with hrow' | hrow'
  · exact List.mem_map_of_mem hrow'
  · -- the rows that are left come behind the one that is named
    refine absurd ?_ hid
    rcases List.mem_cons.1 hrow' with rfl | hrow'
    · exact Std.le_refl _
    · have hbehind := (List.pairwise_append.1 hsorted).2.1
      exact Std.le_of_lt ((List.pairwise_cons.1 hbehind).1 row' hrow')

/-- The last page covers everything from its start on. -/
theorem covers_last (h : c.IsPage pred start size store rows results) :
    c.Covers pred start [visit store size rows results] := by
  refine ⟨?_, ?_, ?_, ?_⟩
  · -- one page only, so its rows are all there is
    rw [List.flatMap_singleton]
    exact sorted_visit h
  · rw [List.flatMap_singleton]
    exact start_le_visit h
  · rintro v (_ | ⟨_, ⟨⟩⟩)
    exact holds_visit h
  · rintro ⟨v, (_ | ⟨_, ⟨⟩⟩), hlast⟩ id hstart hheld
    obtain ⟨entity, hentity⟩ := hheld _ List.mem_cons_self
    obtain ⟨row, hrow, rfl⟩ := h.complete id entity hstart hentity
    -- no row is left behind the page
    have hleft : rows.drop size.toNat = [] := by
      rw [← List.head?_eq_none_iff, ← Option.map_eq_none_iff, ← h.following?_eq]
      exact following?_eq_none_iff.2 hlast
    rw [List.flatMap_singleton, visit, List.take_of_length_le (List.drop_eq_nil_iff.1 hleft)]
    exact List.mem_map_of_mem hrow

/-- A page covers what lies in front of the page behind it. -/
theorem covers_cons (h : c.IsPage pred start size store rows results) {row : Row α}
    (hrow : (rows.drop size.toNat).head? = some row) {visits : List (Visit α)}
    (hvisits : c.Covers pred (some row.id) visits) :
    c.Covers pred start (visit store size rows results :: visits) := by
  have hmem : row ∈ rows := List.mem_of_mem_drop (List.mem_of_head? hrow)
  have hnext : (visit store size rows results).next? ≠ none := by
    rw [Ne, ← following?_eq_none_iff, visit, h.following?_eq, hrow]
    nofun
  refine ⟨?_, ?_, ?_, ?_⟩
  · rw [List.flatMap_cons, List.pairwise_append]
    refine ⟨sorted_visit h, hvisits.sorted, ?_⟩
    intro a ha b hb
    exact Std.lt_of_lt_of_le (lt_next h hrow a ha) (hvisits.start_le b hb row.id rfl)
  · rw [List.flatMap_cons]
    intro id hid s hs
    rcases List.mem_append.1 hid with hid | hid
    · exact start_le_visit h id hid s hs
    · exact Std.le_trans (h.start_le row hmem s hs) (hvisits.start_le id hid row.id rfl)
  · intro v hv
    rcases List.mem_cons.1 hv with rfl | hv
    · exact holds_visit h
    · exact hvisits.holds v hv
  · rintro ⟨v, hv, hlast⟩ id hstart hheld
    rw [List.flatMap_cons, List.mem_append]
    -- the page with none behind it is one of the others
    have hv : v ∈ visits := by
      rcases List.mem_cons.1 hv with rfl | hv
      · exact absurd hlast hnext
      · exact hv
    by_cases hid : row.id ≤ id
    · refine .inr (hvisits.complete ⟨v, hv, hlast⟩ id ?_ ?_)
      · intro s hs
        exact Option.some.inj hs ▸ hid
      · intro v hv
        exact hheld v (List.mem_cons_of_mem _ hv)
    · -- what comes before the next page was there when this one was read
      obtain ⟨entity, hentity⟩ := hheld _ List.mem_cons_self
      exact .inl (mem_visit_of_lt h hrow hstart hentity hid)

/-- What a walk returns from an id on. -/
theorem walk_from {w : World} (hw : w.Within) (hsize : size ≤ c.setup.config.maxPageSize)
    (hregistered : w.store.isRegistered c.type.kindName = true) (pred : α → Bool)
    (start : Option String) (bursts : List (List Step))
    (hdecodes : ∀ store ∈ w.moments bursts, c.Decodes store) :
    ∃ visits, c.walk pred (c.pageFrom size start) w bursts = .ok (visits.map Visit.results) ∧
      visits.map Visit.store <+: w.moments bursts ∧ c.Covers pred start visits := by
  induction bursts generalizing w start with
  | nil =>
    obtain ⟨rows, results, hfind, hpage⟩ :=
      find_page hsize hregistered (hdecodes _ List.mem_cons_self) pred start
    refine ⟨[visit w.store size rows results], ?_, List.prefix_refl _, covers_last hpage⟩
    rw [walk, hfind]
    rfl
  | cons burst bursts ih =>
    obtain ⟨rows, results, hfind, hpage⟩ :=
      find_page hsize hregistered (hdecodes _ List.mem_cons_self) pred start
    have hfollowing := hpage.following?_eq
    cases hrow : (rows.drop size.toNat).head? with
    | none =>
      rw [hrow, Option.map_none] at hfollowing
      -- no page follows, so the bursts that are left are not waited for
      refine ⟨[visit w.store size rows results], ?_, ?_, covers_last hpage⟩
      · simp only [walk, hfind, hfollowing]
        rfl
      · exact (List.prefix_cons_inj _).2 List.nil_prefix
    | some row =>
      rw [hrow, Option.map_some] at hfollowing
      -- the walk goes on behind the burst, from the row that is named as the next
      obtain ⟨visits, hwalk, hstores, hcovers⟩ := ih (World.within_run hw burst)
        (World.registered_run hw burst hregistered) (some row.id)
        fun store h => hdecodes store (List.mem_cons_of_mem _ h)
      refine ⟨visit w.store size rows results :: visits, ?_, ?_, covers_cons hpage hrow hcovers⟩
      · simp only [walk, hfind, hfollowing, hwalk]
        rfl
      · exact (List.prefix_cons_inj _).2 hstores

/-- A walk repeats nothing and misses nothing that stays: over all of its pages the ids ascend
    in byte order, whatever is returned was there and matched when its page was made, and once
    there is no page behind, what was there and matched at every page was returned once. -/
theorem walk_exact {c : Collection α} {pred : α → Bool} {size : UInt32}
    (hsize : size ≤ c.setup.config.maxPageSize) {before : List Step} {bursts : List (List Step)}
    (hregistered : (World.init.run before).store.isRegistered c.type.kindName = true)
    (hdecodes : ∀ store ∈ (World.init.run before).moments bursts, c.Decodes store) :
    ∃ visits : List (Visit α),
      c.walk pred (.first size) (World.init.run before) bursts =
        .ok (visits.map Visit.results) ∧
      visits.map Visit.store <+: (World.init.run before).moments bursts ∧
      (visits.flatMap Visit.ids).Pairwise (fun a b => Utf8.encode a < Utf8.encode b) ∧
      (∀ v ∈ visits, List.Forall₂ (c.Holds pred v.store) v.ids v.results.items) ∧
      ((∃ v ∈ visits, v.next? = none) → ∀ id,
        (∀ v ∈ visits, ∃ entity, c.Holds pred v.store id entity) →
          (visits.flatMap Visit.ids).count id = 1) ∧
      ((∀ v ∈ visits, ∀ id entity, c.Holds pred v.store id entity → c.type.id entity = id) →
        ∀ v ∈ visits, v.results.items.map c.type.id = v.ids) := by
  have hwithin : (World.init.run before).Within :=
    World.within_run (World.within_on .empty) before
  obtain ⟨visits, hwalk, hstores, hcovers⟩ :=
    walk_from hwithin hsize hregistered pred none bursts hdecodes
  -- ids that ascend do not repeat
  have hnodup : (visits.flatMap Visit.ids).Nodup :=
    hcovers.sorted.imp Std.ne_of_lt
  refine ⟨visits, hwalk, hstores, ?_, hcovers.holds, fun hlast id hheld => ?_,
    fun hids v hv => ?_⟩
  · exact hcovers.sorted.imp Utf8.encode_lt_encode_iff.2
  · rw [hnodup.count, if_pos (hcovers.complete hlast id nofun hheld)]
  · have heq : List.Forall₂ Eq (v.results.items.map c.type.id) v.ids :=
      List.forall₂_map_left_iff.2 ((hcovers.holds v hv).flip.imp fun _ _ h => hids v hv _ _ h)
    rwa [List.forall₂_eq_eq_eq] at heq

/-- The collection of notes. -/
def notes : Collection Json := ⟨Note.type, {}⟩

/-- Four notes are saved. -/
def shelved : List Step :=
  .register Note.type.kind :: .plain 0 :: ["a", "b", "c", "e"].map fun id =>
    .act 0 (.save Note.type (Note.of id "kept"))

/-- Behind the first page the note that is next is deleted, and another one takes its place;
    behind the second, one comes too late. -/
def meanwhile : List (List Step) :=
  [[.act 0 (.delete Note.type "c"), .act 0 (.save Note.type (Note.of "d" "kept"))],
    [.act 0 (.save Note.type (Note.of "a" "late"))]]

/-- While a walk goes on, notes are saved and deleted, and the one that stays is read once. -/
theorem walk_exact_notes :
    ∃ visits : List (Visit Json),
      notes.walk (fun _ => true) (.first 2) (World.init.run shelved) meanwhile =
        .ok (visits.map Visit.results) ∧
      (visits.map fun v => v.results.items.map Note.type.id) = [["a", "b"], ["d", "e"]] ∧
      (visits.flatMap Visit.ids).count "e" = 1 := by
  have hregistered :
      (World.init.run shelved).store.isRegistered notes.type.kindName = true := by decide +kernel
  have hdecodes : ∀ store ∈ (World.init.run shelved).moments meanwhile, notes.Decodes store := by
    decide +kernel
  -- one note stays through all the bursts
  have hheld : ∀ store ∈ (World.init.run shelved).moments meanwhile,
      ∃ entity, notes.Holds (fun _ => true) store "e" entity := by
    simp only [meanwhile, World.moments, List.forall_mem_cons]
    exact ⟨⟨_, _, rfl, rfl, rfl⟩, ⟨_, _, rfl, rfl, rfl⟩, ⟨_, _, rfl, rfl, rfl⟩, nofun⟩
  have hpages : (notes.walk (fun _ => true) (.first 2) (World.init.run shelved)
      meanwhile).toOption.map (fun pages => pages.map fun results =>
        (results.items.map Note.type.id, (results.page.bind Page.next).isNone)) =
      some [(["a", "b"], false), (["d", "e"], true)] := by
    -- a scan is defined along its source, so its answer is put in its place first
    simp only [meanwhile, walk, find, runPlain, findOn, Query.search_some]
    decide +kernel
  obtain ⟨visits, hwalk, hstores, -, -, honce, -⟩ :=
    @walk_exact _ notes (fun _ => true) 2 (by decide) shelved meanwhile hregistered hdecodes
  rw [hwalk, Except.toOption, Option.map_some, List.map_map, Option.some.injEq] at hpages
  refine ⟨visits, hwalk, ?_, honce ?_ "e" fun v hv => ?_⟩
  · have hids := congrArg (List.map Prod.fst) hpages
    rwa [List.map_map] at hids
  · have hlast : ((["d", "e"], true) : List String × Bool) ∈ visits.map _ :=
      hpages ▸ List.mem_cons_of_mem _ List.mem_cons_self
    obtain ⟨v, hv, heq⟩ := List.mem_map.1 hlast
    exact ⟨v, hv, Option.isNone_iff_eq_none.1 (Prod.mk.inj heq).2⟩
  · exact hheld v.store (hstores.subset (List.mem_map_of_mem hv))

end Collection

end EntityStore
