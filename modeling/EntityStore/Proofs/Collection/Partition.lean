import EntityStore.Proofs.Collection.Walk
import Mathlib.Algebra.Order.Floor.Div
import Mathlib.Data.List.Chain
import Mathlib.Data.List.Sort

/-! # Pages of a store that stays as it is

While nobody writes, the pages of a walk cut the matching entities into pieces of the size
that was asked for.  The last piece is the only one that may be shorter, and it is empty only
if nothing matches at all.

* `Collection.IsMatching`       the rows of a store that match, from an id on
* `Collection.find_sheet`       a page is made of the rows that match from its start on
* `Collection.Partition`        pages that cut some rows into pieces
* `Collection.pages_from`       the pages of a walk from an id on
* `Collection.pages_partition`  the pages of a walk cut all entities that match -/

namespace EntityStore

/-- The page that a request gets out of the rows of a query, when all of them match. -/
def Query.sheet {α : Type} (q : Query α) (request : Page) : Results α :=
  ⟨(q.rows.take request.size.toNat).map Row.entity,
    some (request.fill (some q.cursor)
      (if (q.drop request.size.toNat).rows = [] then none
        else some (q.drop request.size.toNat).cursor)
      (q.rows.take request.size.toNat).length)⟩

namespace Collection

variable {α : Type} {c : Collection α} {pred : α → Bool} {store : Store} {start : Option String}
  {size : UInt32} {rows : List (Row α)}

/-! ## Rows that match -/

/-- The rows of a store that match, from an id on. -/
structure IsMatching (c : Collection α) (pred : α → Bool) (store : Store)
    (start : Option String) (rows : List (Row α)) : Prop where
  sorted : rows.Pairwise fun a b => a.id < b.id
  mem_iff : ∀ row, row ∈ rows ↔ (∀ s ∈ start, s ≤ row.id) ∧ pred row.entity = true ∧
    ∃ r, store.record? ⟨c.type.kindName, row.id⟩ = some r ∧ Session.RowOf c.type (row.id, r) row

/-- The rows that match are the entities that match. -/
theorem IsMatching.holds_iff (h : c.IsMatching pred store start rows) (id : String) (entity : α) :
    (∃ row ∈ rows, row.id = id ∧ row.entity = entity) ↔
      (∀ s ∈ start, s ≤ id) ∧ c.Holds pred store id entity := by
  constructor
  · rintro ⟨row, hrow, rfl, rfl⟩
    obtain ⟨hstart, hpred, r, hr, hof⟩ := (h.mem_iff row).1 hrow
    exact ⟨hstart, r, hr, hof.decode_eq, hpred⟩
  · rintro ⟨hstart, r, hr, hdecode, hpred⟩
    exact ⟨⟨id, r.version, entity⟩, (h.mem_iff _).2 ⟨hstart, hpred, r, hr, rfl, rfl, hdecode⟩,
      rfl, rfl⟩

/-- Lists that are sorted by strings and have the same elements are the same. -/
theorem eq_of_sorted {β : Type} {f : β → String} {l l' : List β}
    (h : l.Pairwise fun a b => f a < f b) (h' : l'.Pairwise fun a b => f a < f b)
    (hmem : ∀ x, x ∈ l ↔ x ∈ l') : l = l' := by
  have : Std.Irrefl fun a b : β => f a < f b := ⟨fun _ => Std.lt_irrefl⟩
  have : Std.Antisymm fun a b : β => f a < f b := ⟨fun _ _ hab hba =>
    absurd (Std.lt_trans hab hba) Std.lt_irrefl⟩
  exact h.eq_of_mem_iff h' hmem

/-- The rows from one of them on. -/
theorem IsMatching.tail {before : List (Row α)} {row : Row α}
    (h : c.IsMatching pred store start (before ++ row :: rows)) :
    c.IsMatching pred store (some row.id) (row :: rows) := by
  obtain ⟨-, hsorted, hbefore⟩ := List.pairwise_append.1 h.sorted
  refine ⟨hsorted, fun x => ?_⟩
  have hle : ∀ y ∈ row :: rows, row.id ≤ y.id := by
    intro y hy
    rcases List.mem_cons.1 hy with rfl | hy
    · exact Std.le_refl _
    · exact Std.le_of_lt ((List.pairwise_cons.1 hsorted).1 y hy)
  have hrow : row ∈ before ++ row :: rows := List.mem_append_right _ List.mem_cons_self
  constructor
  · -- a row from there on matches, and lies behind the row
    intro hx
    obtain ⟨-, hrest⟩ := (h.mem_iff x).1 (List.mem_append_right _ hx)
    exact ⟨fun s hs => Option.some.inj hs ▸ hle x hx, hrest⟩
  · rintro ⟨hx, hrest⟩
    have hxrow : row.id ≤ x.id := hx row.id rfl
    -- what lies behind the row lies behind the start
    have hstart : ∀ s ∈ start, s ≤ x.id := fun s hs =>
      Std.le_trans (((h.mem_iff row).1 hrow).1 s hs) hxrow
    rcases List.mem_append.1 ((h.mem_iff x).2 ⟨hstart, hrest⟩) with hxb | hxr
    · exact absurd (Std.lt_of_lt_of_le (hbefore x hxb row List.mem_cons_self) hxrow)
        Std.lt_irrefl
    · exact hxr

variable (hregistered : store.isRegistered c.type.kindName = true) (hdecodes : c.Decodes store)
include hregistered hdecodes

/-- The rows of a kind that match can be read. -/
private theorem exists_rows (pred : α → Bool) (start : Option String) :
    ∃ all, Session.plain.rowsFrom store c.type start = .ok all ∧
      c.IsMatching pred store start (all.filter fun row => pred row.entity) := by
  obtain ⟨all, hall, hsorted, hmem⟩ := Session.rowsFrom_plain hregistered hdecodes start
  refine ⟨all, hall, hsorted.filter _, fun row => ?_⟩
  rw [List.mem_filter, hmem]
  tauto

/-- A page is made of the rows that match from its start on. -/
theorem find_sheet (hsize : size ≤ c.setup.config.maxPageSize)
    (hrows : c.IsMatching pred store start rows) :
    c.find store (some (c.pageFrom size start)) pred =
      (.ok ((Query.mk c.type.kindName rows).sheet (c.pageFrom size start)), store) := by
  obtain ⟨all, hall, hmatching⟩ := exists_rows hregistered hdecodes pred start
  have hsame : all.filter (fun row => pred row.entity) = rows :=
    eq_of_sorted hmatching.sorted hrows.sorted fun row =>
      (hmatching.mem_iff row).trans (hrows.mem_iff row).symm
  rw [find_pageFrom hsize hall, Query.search_some, ← hsame]
  rfl

/-- Without a request, all rows that match are found. -/
theorem find_none : ∃ rows, c.IsMatching pred store none rows ∧
    c.find store none pred = (.ok ⟨rows.map Row.entity, none⟩, store) := by
  obtain ⟨all, hall, hmatching⟩ := exists_rows hregistered hdecodes pred none
  refine ⟨_, hmatching, ?_⟩
  have hquery : Session.plain.query store c.type none = .ok ⟨c.type.kindName, all⟩ := by
    rw [Session.query, hall]
    rfl
  -- a search without a request hands out all rows that match
  have hsearch := Query.search_none ⟨c.type.kindName, all⟩ pred
  simp only [find, runPlain, findOn, Config.checkPageSize, Option.bind_none, hquery, bind,
    Except.bind, hsearch]
  rfl

omit hregistered hdecodes

/-! ## Pieces -/

/-- Pages that cut some rows into pieces of a size.  The first one starts in front of the
    rows, and each of the others where the one in front of it says. -/
structure Partition (kind : String) (size : Nat) (rows : List (Row α))
    (pages : List (Results α)) : Prop where
  length_eq : pages.length = max 1 (rows.length ⌈/⌉ size)
  full : ∀ page ∈ pages.dropLast,
    page.items.length = size ∧ (page.page.bind Page.next).isSome = true
  last : ∀ page ∈ pages.getLast?, page.page.bind Page.next = none
  items_eq : pages.flatMap Results.items = rows.map Row.entity
  current_eq : ∀ page ∈ pages.head?,
    page.page.bind Page.current = some (Query.mk kind rows).cursor
  chained : pages.IsChain fun a b => b.page.bind Page.current = a.page.bind Page.next

variable {kind : String} {request : Page} {pages : List (Results α)}

/-- Rows that fit on one page. -/
theorem partition_last (hpos : 0 < request.size.toNat) (h : rows.length ≤ request.size.toNat) :
    Partition kind request.size.toNat rows [(Query.mk kind rows).sheet request] := by
  have hdrop : rows.drop request.size.toNat = [] := List.drop_eq_nil_of_le h
  refine ⟨?_, nofun, ?_, ?_, ?_, .singleton _⟩
  · -- rows that fit on one page need no second one
    have hone : rows.length ⌈/⌉ request.size.toNat ≤ 1 := by
      rw [Nat.ceilDiv_eq_add_pred_div, ← Nat.lt_succ_iff, Nat.div_lt_iff_lt_mul hpos]
      omega
    rw [Nat.max_eq_left hone, List.length_singleton]
  · rintro page ⟨⟩
    exact if_pos hdrop
  · rw [List.flatMap_singleton, Query.sheet, List.take_of_length_le h]
  · rintro page ⟨⟩
    rfl

/-- A page in front of those of the rows that are left. -/
theorem partition_cons (hpos : 0 < request.size.toNat) (h : request.size.toNat < rows.length)
    (hpages : Partition kind request.size.toNat (rows.drop request.size.toNat) pages) :
    Partition kind request.size.toNat rows ((Query.mk kind rows).sheet request :: pages) := by
  have hne : rows.drop request.size.toNat ≠ [] := by
    rw [Ne, List.drop_eq_nil_iff]
    omega
  -- some rows are left, so there is a page behind this one
  have hpagesne : pages ≠ [] := by
    rintro rfl
    have hlength := hpages.length_eq
    rw [List.length_nil] at hlength
    omega
  have hnext : ((Query.mk kind rows).sheet request).page.bind Page.next =
      some (Query.mk kind (rows.drop request.size.toNat)).cursor := if_neg hne
  refine ⟨?_, ?_, ?_, ?_, ?_, ?_⟩
  · -- one page more than for the rows that are left
    have hleft : (rows.drop request.size.toNat).length ⌈/⌉ request.size.toNat + 1 =
        rows.length ⌈/⌉ request.size.toNat := by
      rw [Nat.ceilDiv_eq_add_pred_div, Nat.ceilDiv_eq_add_pred_div, List.length_drop,
        ← Nat.add_div_right _ hpos]
      congr 1
      omega
    have hone : 1 ≤ (rows.drop request.size.toNat).length ⌈/⌉ request.size.toNat := by
      rw [Nat.ceilDiv_eq_add_pred_div, List.length_drop, Nat.le_div_iff_mul_le hpos]
      omega
    rw [List.length_cons, hpages.length_eq, ← hleft]
    omega
  · -- this page is full, and those behind it are by themselves
    rw [List.dropLast_cons_of_ne_nil hpagesne, List.forall_mem_cons]
    refine ⟨⟨?_, by rw [hnext]; rfl⟩, hpages.full⟩
    rw [Query.sheet, List.length_map, List.length_take, Nat.min_eq_left h.le]
  · rw [List.getLast?_cons_of_ne_nil hpagesne]
    exact hpages.last
  · rw [List.flatMap_cons, hpages.items_eq, Query.sheet, ← List.map_append,
      List.take_append_drop]
  · rintro page ⟨⟩
    rfl
  · -- the page behind starts at the first of the rows that are left
    refine List.isChain_cons.2 ⟨fun page hpage => ?_, hpages.chained⟩
    rw [hnext]
    exact hpages.current_eq page hpage

/-! ## The walk -/

/-- Asking for one page in a walk that nobody interrupts. -/
private theorem walk_cons {results : Results α} {next : Page}
    (hfind : c.find store (some request) pred = (.ok results, store))
    (hnext : results.page.bind Page.following? = some next)
    (hpages : ∀ n, c.walk pred next (World.on store) (List.replicate n []) =
      .ok (pages.take (n + 1))) (n : Nat) :
    c.walk pred request (World.on store) (List.replicate n []) =
      .ok ((results :: pages).take (n + 1)) := by
  cases n with
  | zero =>
    rw [List.replicate_zero, walk, show (World.on store).store = store from rfl, hfind]
    rfl
  | succ n =>
    -- nobody writes in between, so the rest is a walk of the same store
    have hrest := hpages n
    simp only [List.replicate_succ, walk, World.on, hfind, hnext, World.run_nil] at hrest ⊢
    rw [hrest]
    rfl

/-- A walk ends where there is no page behind. -/
private theorem walk_last {results : Results α}
    (hfind : c.find store (some request) pred = (.ok results, store))
    (hnext : results.page.bind Page.following? = none) (n : Nat) :
    c.walk pred request (World.on store) (List.replicate n []) = .ok ([results].take (n + 1)) := by
  cases n with
  | zero =>
    rw [List.replicate_zero, walk, show (World.on store).store = store from rfl, hfind]
    rfl
  | succ n =>
    simp only [List.replicate_succ, walk, World.on, hfind, hnext]
    rfl

/-- The page behind starts at the first of the rows that are left. -/
private theorem following?_sheet (q : Query α) (request : Page) :
    (q.sheet request).page.bind Page.following? =
      (q.rows.drop request.size.toNat).head?.map fun row =>
        .startingAt request.size (Position.before q.kind row.id).encode := by
  have hall : q.selected (fun _ => true) = q := by rw [Query.selected, List.filter_true]
  have hfollowing := q.following?_search request fun _ => true
  rw [Query.search_some, hall] at hfollowing
  exact hfollowing

include hregistered hdecodes

/-- The pages of a walk from an id on cut the rows that match from there on. -/
theorem pages_from (hpos : 0 < size) (hsize : size ≤ c.setup.config.maxPageSize)
    (hrows : c.IsMatching pred store start rows) :
    ∃ pages, Partition c.type.kindName size.toNat rows pages ∧
      ∀ n, c.walk pred (c.pageFrom size start) (World.on store) (List.replicate n []) =
        .ok (pages.take (n + 1)) := by
  -- on the number of rows that are still to come
  induction hn : rows.length using Nat.strong_induction_on generalizing start rows with
  | h n ih =>
    have hpos' : 0 < (c.pageFrom size start).size.toNat := UInt32.lt_iff_toNat_lt.1 hpos
    have hfind := find_sheet hregistered hdecodes hsize hrows
    have hfollowing := following?_sheet (Query.mk c.type.kindName rows) (c.pageFrom size start)
    simp only [show (c.pageFrom size start).size = size from rfl] at hfollowing
    by_cases hfit : rows.length ≤ size.toNat
    · -- all rows fit, so this page is the last one
      have hlast : Partition c.type.kindName (c.pageFrom size start).size.toNat rows _ :=
        partition_last hpos' hfit
      rw [List.drop_eq_nil_of_le hfit] at hfollowing
      exact ⟨_, hlast, walk_last hfind hfollowing⟩
    · -- the walk goes on at the first of the rows that do not fit
      obtain ⟨row, rest, hdrop⟩ : ∃ row rest, rows.drop size.toNat = row :: rest :=
        List.exists_cons_of_ne_nil (by rw [Ne, List.drop_eq_nil_iff]; exact hfit)
      have hsplit : rows.take size.toNat ++ row :: rest = rows := by
        rw [← hdrop, List.take_append_drop]
      have hlength : (row :: rest).length < n := by
        have hpos : 0 < size.toNat := hpos'
        rw [← hdrop, List.length_drop]
        omega
      obtain ⟨pages, hpages, hwalk⟩ := ih _ hlength (hsplit ▸ hrows).tail rfl
      rw [hdrop] at hfollowing
      rw [← hdrop] at hpages
      have hmore : Partition c.type.kindName (c.pageFrom size start).size.toNat rows _ :=
        partition_cons hpos' (Nat.lt_of_not_le hfit) hpages
      exact ⟨_, hmore, walk_cons hfind hfollowing hwalk⟩

omit hregistered hdecodes

/-- The pages of a walk cut all entities that match into pieces of the size that was asked
    for: all but the last are full, the last one alone says that there is none behind it, and
    each of the others starts where the one in front of it said. -/
theorem pages_partition {c : Collection α} {store : Store} {size : UInt32} (hpos : 0 < size)
    (hsize : size ≤ c.setup.config.maxPageSize)
    (hregistered : store.isRegistered c.type.kindName = true) (hdecodes : c.Decodes store)
    (pred : α → Bool) :
    ∃ (rows : List (Row α)) (pages : List (Results α)),
      rows.Pairwise (fun a b => Utf8.encode a.id < Utf8.encode b.id) ∧
      (∀ id entity, c.Holds pred store id entity ↔
        ∃ row ∈ rows, row.id = id ∧ row.entity = entity) ∧
      c.find store none pred = (.ok ⟨rows.map Row.entity, none⟩, store) ∧
      (∀ n, c.walk pred (.first size) (World.on store) (List.replicate n []) =
        .ok (pages.take (n + 1))) ∧
      pages.length = max 1 (rows.length ⌈/⌉ size.toNat) ∧
      (∀ page ∈ pages.dropLast,
        page.items.length = size.toNat ∧ (page.page.bind Page.next).isSome = true) ∧
      (∀ page ∈ pages.getLast?, page.page.bind Page.next = none) ∧
      pages.flatMap Results.items = rows.map Row.entity ∧
      pages.IsChain (fun a b => b.page.bind Page.current = a.page.bind Page.next) ∧
      ((∀ id entity, c.Holds pred store id entity → c.type.id entity = id) →
        (pages.flatMap Results.items).map c.type.id = rows.map Row.id) := by
  obtain ⟨rows, hrows, hfind⟩ := find_none hregistered hdecodes
  obtain ⟨pages, hpages, hwalk⟩ := pages_from hregistered hdecodes hpos hsize hrows
  -- from no start, what matches is what the collection holds
  have hholds : ∀ id entity, c.Holds pred store id entity ↔
      ∃ row ∈ rows, row.id = id ∧ row.entity = entity := fun id entity =>
    ((hrows.holds_iff id entity).trans (and_iff_right nofun)).symm
  refine ⟨rows, pages, hrows.sorted.imp Utf8.encode_lt_encode_iff.2, hholds, hfind, hwalk,
    hpages.length_eq, hpages.full, hpages.last, hpages.items_eq, hpages.chained, fun hids => ?_⟩
  rw [hpages.items_eq, List.map_map]
  exact List.map_congr_left fun row hrow =>
    hids row.id row.entity ((hholds _ _).2 ⟨row, hrow, rfl, rfl⟩)

/-- Four notes fill two pages of two, and there is no empty page behind them. -/
theorem pages_partition_notes :
    ∃ pages : List (Results Json),
      (∀ n, notes.walk (fun _ => true) (.first 2) (World.on (World.init.run shelved).store)
        (List.replicate n []) = .ok (pages.take (n + 1))) ∧
      (pages.map fun results => results.items.map Note.type.id) = [["a", "b"], ["c", "e"]] ∧
      ∀ page ∈ pages.getLast?, page.page.bind Page.next = none := by
  have hregistered :
      (World.init.run shelved).store.isRegistered notes.type.kindName = true := by decide +kernel
  have hdecodes : notes.Decodes (World.init.run shelved).store := by decide +kernel
  -- the walk is asked for one page more than there is
  have hids : (notes.walk (fun _ => true) (.first 2) (World.on (World.init.run shelved).store)
      (List.replicate 2 [])).toOption.map (fun pages => pages.map fun results =>
        results.items.map Note.type.id) = some [["a", "b"], ["c", "e"]] := by
    simp only [List.replicate_succ, List.replicate_zero, walk, find, runPlain, findOn,
      Query.search_some]
    decide +kernel
  obtain ⟨rows, pages, -, -, -, hwalk, -, -, hlast, -⟩ :=
    @pages_partition _ notes _ 2 (by decide) (by decide) hregistered hdecodes fun _ => true
  rw [hwalk, Except.toOption, Option.map_some, Option.some.injEq] at hids
  -- a third page was asked for in vain
  have htwo : min 3 pages.length = 2 := by simpa using congrArg List.length hids
  have htake : pages.take (2 + 1) = pages := List.take_of_length_le (by omega)
  exact ⟨pages, hwalk, htake ▸ hids, hlast⟩

end Collection

end EntityStore
