import EntityStore.Proofs.Collection.Boundary
import EntityStore.Proofs.Collection.Partition

/-! # Pages that are asked for again

A page says where it starts.  That need not be where its request starts: the cursor has been
moved past the rows that do not match, up to the first one that does, or to the position behind
the last record.  Asked for from there, as long as nobody writes, the page is the same.

* `Session.query_cases`       what a query that succeeds has read
* `Session.rowsFrom_later`    the rows from a later id on
* `Session.query_again`       a query from the first row that matches has the same matching rows
* `Collection.findOn_again`   a page that is asked for again, in any session
* `Collection.reread_exact`   the same outside of transactions and in the one of a caller -/

namespace EntityStore

/-! ## Queries from a later id on -/

namespace Session

variable {α : Type} {s : Session} {store : Store} {type : EntityType α}

/-- Rows can be read only of a registered kind, and not in a transaction that has finished. -/
theorem serves_of_rowsFrom {first : Option String} {rows : List (Row α)}
    (h : s.rowsFrom store type first = .ok rows) :
    store.isRegistered type.kindName = true ∧ ∃ transaction, s.active = .ok transaction := by
  rcases s.rowsFrom_cases store type first with hkind | hfinished | hserves
  · cases hkind.symm.trans h
  · cases hfinished.symm.trans h
  · exact hserves

/-- A query that succeeds has read the rows from an id on, or starts at the end, where no row is
    read at all. -/
theorem query_cases {start : Option Cursor} {q : Query α} (h : s.query store type start = .ok q) :
    (∃ first rows, Opens type start first ∧ s.rowsFrom store type first = .ok rows ∧
        q = ⟨type.kindName, rows⟩) ∨
      store.isRegistered type.kindName = true ∧ q = ⟨type.kindName, []⟩ := by
  cases start with
  | none =>
    obtain ⟨rows, hrows, rfl⟩ := (query_ok_iff .all).1 h
    exact .inl ⟨none, rows, .all, hrows, rfl⟩
  | some cursor =>
    cases hcursor : Position.decodeFor cursor type.kindName with
    | error e =>
      simp only [query, hcursor, bind, Except.bind] at h
      cases h
    | ok p =>
      -- a cursor at the end, or one at an id
      obtain ⟨kind, _ | id⟩ := p
      · simp only [query, hcursor, bind, Except.bind] at h
        rcases store.table_eq type.kindName with ⟨t, -, htable, hregistered⟩ | ⟨htable, -⟩
        · rw [htable] at h
          exact .inr ⟨hregistered, (Except.ok.inj h).symm⟩
        · rw [htable] at h
          cases h
      · obtain rfl : kind = type.kindName := kind_of_decodeFor hcursor
        have hopens : Opens type (some cursor) (some id) := .cursor hcursor
        obtain ⟨rows, hrows, rfl⟩ := (query_ok_iff hopens).1 h
        exact .inl ⟨some id, rows, hopens, hrows, rfl⟩

/-- Rows come by ascending id, from the first id on. -/
theorem sorted_rowsFrom {first : Option String} {rows : List (Row α)}
    (h : s.rowsFrom store type first = .ok rows) :
    (rows.Pairwise fun a b => a.id < b.id) ∧ ∀ row ∈ rows, ∀ f ∈ first, f ≤ row.id := by
  obtain ⟨hregistered, transaction, hactive⟩ := serves_of_rowsFrom h
  obtain ⟨records, hread, hrecords⟩ := exists_rowsFrom hactive hregistered first
  rw [hread] at h
  refine ⟨pairwise_of_decodeRows h, fun row hrow => ?_⟩
  obtain ⟨r, hr, -⟩ := (mem_of_decodeRows h row).1 hrow
  rw [hrecords, Option.ite_none_right_eq_some] at hr
  exact hr.1

/-- The rows from a later id on are those that lie there of the rows from an earlier one on. -/
theorem rowsFrom_later {first : Option String} {rows : List (Row α)}
    (h : s.rowsFrom store type first = .ok rows) {id : String} (hid : ∀ f ∈ first, f ≤ id) :
    s.rowsFrom store type (some id) = .ok (rows.filter fun row => id ≤ row.id) := by
  obtain ⟨hregistered, transaction, hactive⟩ := serves_of_rowsFrom h
  obtain ⟨records, hread, hrecords⟩ := exists_rowsFrom hactive hregistered first
  obtain ⟨later, hreadLater, hlater⟩ := exists_rowsFrom hactive hregistered (some id)
  rw [hread] at h
  -- what lies behind the id lies behind the first one too
  have hsame (k : String) (r : Record) :
      later[k]? = some r ↔ id ≤ k ∧ records[k]? = some r := by
    rw [hlater, hrecords, Option.ite_none_right_eq_some, Option.ite_none_right_eq_some]
    constructor
    · rintro ⟨hk, hr⟩
      exact ⟨hk id rfl, fun f hf => Std.le_trans (hid f hf) (hk id rfl), hr⟩
    · rintro ⟨hk, -, hr⟩
      exact ⟨fun f hf => Option.some.inj hf ▸ hk, hr⟩
  -- the records behind the id are entities, being among those that were read
  obtain ⟨rows', hrows'⟩ : ∃ rows', decodeRows type later.toList = .ok rows' := by
    refine exists_decodeRows_iff.2 fun p hp => exists_decodeRows_iff.1 ⟨rows, h⟩ p ?_
    rw [Std.ExtTreeMap.mem_toList_iff_getElem?_eq_some] at hp ⊢
    exact ((hsame p.1 p.2).1 hp).2
  rw [hreadLater, hrows']
  refine congrArg Except.ok ?_
  refine Collection.eq_of_sorted (pairwise_of_decodeRows hrows')
    ((pairwise_of_decodeRows h).filter _) fun row => ?_
  simp only [mem_of_decodeRows hrows', List.mem_filter, mem_of_decodeRows h, hsame,
    decide_eq_true_eq]
  tauto

/-- A query that succeeds is one of its kind. -/
theorem kind_of_query {start : Option Cursor} {q : Query α}
    (h : s.query store type start = .ok q) : q.kind = type.kindName := by
  rcases query_cases h with ⟨first, rows, -, -, rfl⟩ | ⟨-, rfl⟩ <;> rfl

/-- A query that is opened at the first row of another one that matches, or at the end if there
    is none, has the same matching rows. -/
theorem query_again {start : Option Cursor} {q : Query α} (h : s.query store type start = .ok q)
    (pred : α → Bool) :
    ∃ q', s.query store type (some (q.selected pred).cursor) = .ok q' ∧
      q'.selected pred = q.selected pred := by
  have hregistered : store.isRegistered type.kindName = true := by
    rcases query_cases h with ⟨first, rows, -, hrows, -⟩ | ⟨hregistered, -⟩
    · exact (serves_of_rowsFrom hrows).1
    · exact hregistered
  obtain ⟨kind, rows⟩ := q
  obtain rfl : kind = type.kindName := kind_of_query h
  cases hmatching : rows.filter fun row => pred row.entity with
  -- nothing matches, so the cursor is the one at the end
  | nil =>
    have hselected : (Query.mk type.kindName rows).selected pred = ⟨type.kindName, []⟩ :=
      congrArg (Query.mk type.kindName) hmatching
    rw [hselected]
    have hend := Position.decodeFor_encode (.atEnd type.kindName)
    exact ⟨_, query_atEnd s hregistered hend, rfl⟩
  | cons row matching =>
    have hselected : (Query.mk type.kindName rows).selected pred =
        ⟨type.kindName, row :: matching⟩ := congrArg (Query.mk type.kindName) hmatching
    rw [hselected]
    have hrow : row ∈ rows := (List.mem_filter.1 (hmatching ▸ List.mem_cons_self)).1
    rcases query_cases h with ⟨first, rows', hopens, hrows, heq⟩ | ⟨-, heq⟩
    · obtain ⟨-, rfl⟩ := Query.mk.inj heq
      obtain ⟨hsorted, hfirst⟩ := sorted_rowsFrom hrows
      -- the rows that match come behind the first of them
      have hbehind : ∀ x ∈ row :: matching, row.id ≤ x.id := by
        have hsorted := hsorted.filter fun row => pred row.entity
        rw [hmatching] at hsorted
        intro x hx
        rcases List.mem_cons.1 hx with rfl | hx
        · exact Std.le_refl _
        · exact Std.le_of_lt ((List.pairwise_cons.1 hsorted).1 x hx)
      have hopens : Opens type (some (Query.mk type.kindName (row :: matching)).cursor)
          (some row.id) := opens_encode type row.id
      refine ⟨_, (query_ok_iff hopens).2 ⟨_, rowsFrom_later hrows (hfirst row hrow), rfl⟩, ?_⟩
      rw [Query.selected, List.filter_filter, ← hmatching]
      refine congrArg (Query.mk type.kindName) (List.filter_congr fun x hx => ?_)
      cases hx' : pred x.entity with
      | false => rfl
      -- a row that matches is not in front of the first that does
      | true =>
        have hmem : x ∈ row :: matching := hmatching ▸ List.mem_filter.2 ⟨hx, hx'⟩
        exact decide_eq_true (hbehind x hmem)
    · obtain ⟨-, rfl⟩ := Query.mk.inj heq
      cases hrow

end Session

namespace Query

variable {α : Type} {q q' : Query α} {pred : α → Bool}

/-- The rows of a query that match start at the end if there are none. -/
theorem cursor_selected_iff :
    (q.selected pred).cursor = (Position.atEnd q.kind).encode ↔
      ∀ row ∈ q.rows, pred row.entity = false := by
  have hnone : (q.selected pred).rows = [] ↔ ∀ row ∈ q.rows, pred row.entity = false := by
    simp only [selected, List.filter_eq_nil_iff, Bool.not_eq_true]
  -- the cursor names the first row that matches, or the end if there is none
  rw [← hnone, cursor, position]
  cases (q.selected pred).rows with
  | nil => exact iff_of_true rfl rfl
  | cons row rows =>
    refine iff_of_false (fun h => ?_) (List.cons_ne_nil row rows)
    cases Position.encode_injective h

/-- A page hangs on the rows that match and on the size that is asked for. -/
theorem search_congr (h : q'.selected pred = q.selected pred) {request request' : Page}
    (hsize : request'.size = request.size) :
    q'.search (some request') pred = q.search (some request) pred := by
  simp only [search_some, h, hsize, Page.fill]

end Query

namespace Collection

variable {α : Type} {c : Collection α} {pred : α → Bool} {s : Session} {store : Store}
  {request : Page} {results : Results α}

/-! ## Pages -/

/-- Where a page starts that a request got: in front of the first row of the query that matches,
    or behind the last record if none does. -/
structure StartsAt (c : Collection α) (pred : α → Bool) (s : Session) (store : Store)
    (request : Page) (results : Results α) (page : Page) (cursor : Cursor) : Prop where
  page_eq : results.page = some page
  size_eq : page.size = request.size
  current_eq : page.current = some cursor
  atEnd_iff : ∃ q, s.query store c.type request.current = .ok q ∧
    (cursor = (Position.atEnd c.type.kindName).encode ↔ ∀ row ∈ q.rows, pred row.entity = false)

/-- A page that is asked for again from where it says it starts. -/
theorem findOn_again (h : (c.findOn (some request) pred s store).result = .ok results) :
    ∃ page cursor, c.StartsAt pred s store request results page cursor ∧
      (c.findOn (some (.startingAt page.size cursor)) pred s store).result = .ok results := by
  obtain ⟨hsize, q, hq, rfl⟩ := findOn_ok_iff.1 h
  -- the query from the reported place has the same rows that match
  obtain ⟨q', hq', hselected⟩ := Session.query_again hq pred
  have hkind := Session.kind_of_query hq
  have hpage := congrArg Results.page (q.search_some request pred)
  refine ⟨_, (q.selected pred).cursor, ⟨hpage, rfl, rfl, q, hq, ?_⟩, ?_⟩
  · rw [← hkind, Query.cursor_selected_iff]
  · refine findOn_ok_iff.2 ⟨hsize, q', hq', ?_⟩
    exact Query.search_congr hselected rfl

/-- The page that a request gets, outside of transactions or in the one that a caller passes, is
    enough to ask for it again.  The request for a page of its size that starts where it says it
    starts gets the same items, the same account of the page, and leaves store and transaction
    as they are; also if nothing matched, so that the page starts at the end. -/
theorem reread_exact (c : Collection α) (store : Store) (request : Page) (pred : α → Bool) :
    (∀ results, (c.find store (some request) pred).1 = .ok results →
      ∃ page cursor, c.StartsAt pred .plain store request results page cursor ∧
        c.find store (some request) pred = (.ok results, store) ∧
        c.find store (some (.startingAt page.size cursor)) pred = (.ok results, store)) ∧
      ∀ (t : Option CallerTransaction) (results : Results α),
        (c.findIn t store (some request) pred).result = .ok results →
        ∃ handle page cursor, t = some (.own handle) ∧
          c.StartsAt pred handle.session store request results page cursor ∧
          c.findIn t store (some request) pred = ⟨.ok results, store, t⟩ ∧
          c.findIn t store (some (.startingAt page.size cursor)) pred =
            ⟨.ok results, store, t⟩ := by
  refine ⟨fun results h => ?_, fun t results h => ?_⟩
  · obtain ⟨page, cursor, hstarts, hagain⟩ := findOn_again h
    exact ⟨page, cursor, hstarts, Prod.ext h rfl, Prod.ext hagain rfl⟩
  · obtain ⟨handle, rfl, hfound⟩ := CallerTransaction.own_of_ok h
    obtain ⟨page, cursor, hstarts, hagain⟩ := findOn_again hfound
    -- a find leaves its session alone
    have houtcome (request : Page)
        (h : (c.findOn (some request) pred handle.session store).result = .ok results) :
        c.findIn (some (.own handle)) store (some request) pred =
          ⟨.ok results, store, some (.own handle)⟩ :=
      congrArg (Outcome.mk · store (some (CallerTransaction.own handle))) h
    exact ⟨handle, page, cursor, rfl, hstarts, houtcome _ hfound, houtcome _ hagain⟩

/-- Four notes are saved.  A transaction takes the first of them away and rewrites the second. -/
def revised : List Step :=
  .register Note.type.kind :: .plain 0 ::
    (["a", "b", "c", "d"].map fun id => .act 0 (.save Note.type (Note.of id "kept"))) ++
    [.begin 1, .act 1 (.delete Note.type "a"), .act 1 (.save Note.type (Note.of "b" "new"))]

/-- The transaction, behind a handle. -/
def revising : TransactionalHandle :=
  ⟨⟨((World.init.run revised).sessions 1).getD .plain, true⟩, rfl⟩

/-- The first row of the transaction does not match, so the page starts at the second one.  Where
    nothing matches, an empty page starts at the end. -/
theorem reread_exact_revised :
    (∃ results page, results.items = [(Note.row "c" 3 "kept").entity] ∧
      results.page = some page ∧ page.current = some (Position.before "Note" "c").encode ∧
      page.next = some (Position.before "Note" "d").encode ∧
      notes.findIn (some (.own revising)) (World.init.run revised).store (some (.first 1))
          (fun note => Note.type.id note != "b") =
        ⟨.ok results, (World.init.run revised).store, some (.own revising)⟩ ∧
      notes.findIn (some (.own revising)) (World.init.run revised).store
          (some (.startingAt 1 (Position.before "Note" "c").encode))
          (fun note => Note.type.id note != "b") =
        ⟨.ok results, (World.init.run revised).store, some (.own revising)⟩) ∧
      ∃ results,
        notes.find (World.init.run revised).store (some (.first 0)) (fun _ => false) =
          (.ok results, (World.init.run revised).store) ∧
        notes.find (World.init.run revised).store
            (some (.startingAt 0 (Position.atEnd "Note").encode)) (fun _ => false) =
          (.ok results, (World.init.run revised).store) := by
  -- in the transaction the first row is gone and the second revised
  have hinside : revising.session.query (World.init.run revised).store Note.type none =
      .ok ⟨"Note", [Note.row "b" 0 "new", Note.row "c" 3 "kept", Note.row "d" 4 "kept"]⟩ := by
    with_unfolding_all rfl
  -- outside of it all rows are there
  have houtside : Session.plain.query (World.init.run revised).store Note.type none =
      .ok ⟨"Note", [Note.row "a" 1 "kept", Note.row "b" 2 "kept", Note.row "c" 3 "kept",
        Note.row "d" 4 "kept"]⟩ := by
    with_unfolding_all rfl
  refine ⟨?_, ?_⟩
  · have hfound : (notes.findIn (some (.own revising)) (World.init.run revised).store
        (some (.first 1)) fun note => Note.type.id note != "b").result = .ok _ :=
      findOn_ok_iff.2 ⟨rfl, _, hinside, Query.search_some ..⟩
    obtain ⟨handle, page, cursor, ⟨⟩, hstarts, hfirst, hagain⟩ :=
      (reread_exact notes (World.init.run revised).store (.first 1) _).2 _ _ hfound
    obtain rfl := Option.some.inj hstarts.page_eq
    obtain rfl := Option.some.inj hstarts.current_eq
    exact ⟨_, _, rfl, rfl, rfl, rfl, hfirst, hagain⟩
  · have hfound : (notes.find (World.init.run revised).store (some (.first 0))
        fun _ => false).1 = .ok _ :=
      findOn_ok_iff.2 ⟨rfl, _, houtside, Query.search_some ..⟩
    obtain ⟨page, cursor, hstarts, hfirst, hagain⟩ :=
      (reread_exact notes (World.init.run revised).store (.first 0) _).1 _ hfound
    obtain rfl := Option.some.inj hstarts.page_eq
    obtain rfl := Option.some.inj hstarts.current_eq
    exact ⟨_, hfirst, hagain⟩

end Collection

end EntityStore
