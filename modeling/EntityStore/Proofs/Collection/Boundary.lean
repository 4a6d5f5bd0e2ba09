import EntityStore.Proofs.System.Finished
import EntityStore.Proofs.System.Known

/-! # What a collection checks first

Several things may be wrong with one call, and the caller is told of the first of them: that no
transaction of this store was passed, then that the page is too large, then that the cursor is
none of the kind, and only then what the store, the transaction or the records have against it.

* `Position.Misfits`           a cursor that cannot be read, or is one of another kind
* `Session.rowsFrom_cases`     what has to hold before a record is read
* `Session.query_error_cases`  what goes wrong in a query, in the order of its checks
* `Collection.findOn_ok_iff`, `Collection.findOn_error_cases`  the answers of a find
* `Collection.Finds`           an answer outside of transactions, or in one of this store
* `Setup.fits_of_build`        a setup that was built allows the first page
* `Collection.boundary_exact`  what each call is refused for -/

namespace EntityStore

/-! ## Sizes and cursors -/

/-- A page is refused for nothing but its size. -/
theorem Config.checkPageSize_eq (c : Config) (request : Option Page) :
    c.checkPageSize request = .ok () ∧ (∀ p ∈ request, p.size ≤ c.maxPageSize) ∨
      ∃ p ∈ request, c.maxPageSize < p.size ∧
        c.checkPageSize request = .error (.invalidInput
          s!"page size {p.size.toNat} exceeds maximum {c.maxPageSize.toNat}") := by
  cases request with
  | none => exact .inl ⟨rfl, nofun⟩
  | some p =>
    rw [checkPageSize]
    by_cases hsize : c.maxPageSize < p.size
    · -- the one reason to refuse a page
      exact .inr ⟨p, rfl, hsize, if_pos hsize⟩
    · refine .inl ⟨if_neg hsize, ?_⟩
      rintro _ ⟨⟩
      exact UInt32.not_lt.1 hsize

namespace Position

/-- A cursor that cannot be read, or that was made for another kind. -/
def Misfits (cursor : Cursor) (kind : String) : Prop :=
  (∃ e, decode cursor = .error e) ∨ ∃ p, decode cursor = .ok p ∧ p.kind ≠ kind

/-- The cursors that are refused for a kind are those that do not fit it. -/
theorem misfits_iff {cursor : Cursor} {kind : String} :
    Misfits cursor kind ↔ ∃ e, decodeFor cursor kind = .error e := by
  rw [Misfits, decodeFor]
  cases hdecode : decode cursor with
  | error e => simp [bind, Except.bind]
  | ok p =>
    by_cases hkind : p.kind = kind <;>
      simp [bind, Except.bind, hkind, pure, Except.pure, throw, throwThe, MonadExceptOf.throw]

end Position

/-! ## Queries that fail -/

namespace Session

variable {α : Type} {s : Session} {store : Store} {type : EntityType α} {e : Error}

/-- Before the first record is read, the kind has to be there and the transaction has to be open,
    if there is one. -/
theorem rowsFrom_cases (s : Session) (store : Store) (type : EntityType α)
    (first : Option String) :
    s.rowsFrom store type first = .error (.kindNotRegistered type.kindName) ∨
      s.rowsFrom store type first = .error .transactionNotActive ∨
      store.isRegistered type.kindName = true ∧ ∃ transaction, s.active = .ok transaction := by
  cases hregistered : store.isRegistered type.kindName with
  | false =>
    refine .inl ?_
    simp only [rowsFrom, Store.readFrom_of_not_registered hregistered, bind, Except.bind]
  | true =>
    -- the kind is there, so the transaction decides
    cases hactive : s.active with
    | error e =>
      obtain rfl := active_error hactive
      obtain ⟨records, hread, -⟩ := Store.readFrom_of_registered hregistered first
      refine .inr (.inl ?_)
      simp only [rowsFrom, hread, hactive, bind, Except.bind]
    | ok transaction => exact .inr (.inr ⟨rfl, transaction, rfl⟩)

/-- What the store, the transaction or a record can have against a query. -/
inductive Unreadable (type : EntityType α) : Error → Prop where
  | kind : Unreadable type (.kindNotRegistered type.kindName)
  | transaction : Unreadable type .transactionNotActive
  | record (cause : BodyError) : Unreadable type (.serialization cause)

/-- Rows that cannot be read lack their kind, their transaction or an entity. -/
theorem unreadable_of_rowsFrom {first : Option String}
    (h : s.rowsFrom store type first = .error e) : Unreadable type e := by
  rcases s.rowsFrom_cases store type first with hkind | hfinished | ⟨hregistered, _, hactive⟩
  · obtain rfl := Except.error.inj (hkind.symm.trans h)
    exact .kind
  · obtain rfl := Except.error.inj (hfinished.symm.trans h)
    exact .transaction
  · -- the rows were looked for, so a record of them is no entity
    obtain ⟨records, hrows, -⟩ := exists_rowsFrom hactive hregistered first
    obtain ⟨-, -, -, cause, -, -, rfl, -⟩ := decodeRows_error_iff.1 (hrows.symm.trans h)
    exact .record cause

/-- The cursor of a query is looked at first. -/
theorem query_error_cases {start : Option Cursor} (h : s.query store type start = .error e) :
    (∃ cursor ∈ start, Position.Misfits cursor type.kindName ∧
        ∃ reason, e = .invalidCursor reason) ∨
      (∀ cursor ∈ start, ¬ Position.Misfits cursor type.kindName) ∧ Unreadable type e := by
  cases start with
  | none => exact .inr ⟨nofun, unreadable_of_rowsFrom ((query_error_iff .all).1 h)⟩
  | some cursor =>
    -- a cursor that does not fit ends the query before anything is read
    cases hcursor : Position.decodeFor cursor type.kindName with
    | error e' =>
      simp only [query, hcursor, bind, Except.bind] at h
      obtain rfl := Except.error.inj h
      exact .inl ⟨cursor, rfl, Position.misfits_iff.2 ⟨_, hcursor⟩,
        Position.decodeFor_error hcursor⟩
    | ok p =>
      have hfits : ∀ cursor' ∈ some cursor, ¬ Position.Misfits cursor' type.kindName := by
        rintro _ ⟨⟩ hmisfits
        obtain ⟨e', he'⟩ := Position.misfits_iff.1 hmisfits
        cases hcursor.symm.trans he'
      refine .inr ⟨hfits, ?_⟩
      obtain ⟨kind, _ | id⟩ := p
      · -- at the end no row is read, but the kind has to be there
        simp only [query, hcursor, bind, Except.bind] at h
        rcases store.table_eq type.kindName with ⟨t, -, htable, -⟩ | ⟨htable, -⟩
        · rw [htable] at h
          cases h
        · rw [htable] at h
          obtain rfl := Except.error.inj h
          exact .kind
      · obtain rfl : kind = type.kindName := kind_of_decodeFor hcursor
        exact unreadable_of_rowsFrom ((query_error_iff (.cursor hcursor)).1 h)

/-- A query that succeeds starts at a cursor of its kind. -/
theorem fits_of_query {start : Option Cursor} {q : Query α}
    (h : s.query store type start = .ok q) :
    ∀ cursor ∈ start, ¬ Position.Misfits cursor type.kindName := by
  rintro cursor rfl hmisfits
  obtain ⟨e, he⟩ := Position.misfits_iff.1 hmisfits
  simp only [query, he, bind, Except.bind] at h
  cases h

end Session

/-! ## Transactions that are passed -/

/-- Only a transaction of this store gets an answer. -/
theorem CallerTransaction.own_of_ok {β : Type} {t : Option CallerTransaction} {store : Store}
    {operation : Session → Store → Outcome Session β} {answer : β}
    (h : (run t store operation).result = .ok answer) :
    ∃ handle, t = some (.own handle) ∧ (operation handle.session store).result = .ok answer := by
  match t with
  | some (.own handle) => exact ⟨handle, rfl, h⟩
  | some (.foreign typeName) => cases h
  | none => cases h

/-! ## Setups -/

/-- A setup that is built is the one that was asked for, and its default page is an allowed
    one. -/
theorem Setup.fits_of_build {σ : Type} [Registrar σ] {setup built : Setup} {files : FileTree}
    {registry : Registry} {datastore : Option σ}
    (h : (setup.build files registry datastore).result = .ok built) :
    built = setup ∧ built.config.defaultPageSize ≤ built.config.maxPageSize := by
  cases datastore with
  | none => cases h
  | some store =>
    rw [build] at h
    have hvalid : setup.config.validate = .ok () := by
      cases hvalid : setup.config.validate with
      | ok _ => rfl
      | error e =>
        rw [hvalid] at h
        cases h
    simp only [hvalid] at h
    -- registering the kinds does not change the setup
    obtain rfl : built = setup := by
      split at h
      · exact (Except.ok.inj h).symm
      · next path _ =>
        cases hlist : (setup.registerFile files path registry store).result with
        | ok kinds =>
          rw [hlist] at h
          exact (Except.ok.inj h).symm
        | error e =>
          rw [hlist] at h
          cases h
    -- a default page above the maximum would have been refused
    refine ⟨rfl, UInt32.not_lt.1 fun hlt => ?_⟩
    rw [Config.validate, if_pos hlt] at hvalid
    cases hvalid

namespace Collection

variable {α : Type} {c : Collection α} {pred : α → Bool} {s : Session} {store : Store}
  {request : Option Page} {results : Results α}

/-! ## Finds -/

/-- A find succeeds if the page is of an allowed size and the query behind it is answered. -/
theorem findOn_ok_iff :
    (c.findOn request pred s store).result = .ok results ↔
      c.setup.config.checkPageSize request = .ok () ∧
        ∃ q, s.query store c.type (request.bind Page.current) = .ok q ∧
          q.search request pred = results := by
  simp only [findOn, bind, Except.bind]
  cases c.setup.config.checkPageSize request with
  | error e => simp
  | ok u => cases s.query store c.type (request.bind Page.current) <;> simp [pure, Except.pure]

/-- A find that fails is told so by the check of the page, or else by the query. -/
theorem findOn_error_iff {e : Error} :
    (c.findOn request pred s store).result = .error e ↔
      c.setup.config.checkPageSize request = .error e ∨
        c.setup.config.checkPageSize request = .ok () ∧
          s.query store c.type (request.bind Page.current) = .error e := by
  simp only [findOn, bind, Except.bind]
  cases c.setup.config.checkPageSize request with
  | error e => simp
  | ok u => cases s.query store c.type (request.bind Page.current) <;> simp [pure, Except.pure]

/-- An answer of a find, outside of transactions or in a transaction of this store, in whatever
    state it is. -/
inductive Finds (c : Collection α) (request : Option Page) (pred : α → Bool) (store : Store) :
    Except Error (Results α) → Prop where
  | alone : Finds c request pred store (c.find store request pred).1
  | inside (t : TransactionalHandle) :
    Finds c request pred store (c.findIn (some (.own t)) store request pred).result

/-- Every find is one in some session. -/
theorem Finds.exists_findOn {answer : Except Error (Results α)}
    (h : c.Finds request pred store answer) :
    ∃ s, (c.findOn request pred s store).result = answer := by
  cases h with
  | alone => exact ⟨.plain, rfl⟩
  | inside t => exact ⟨t.session, rfl⟩

/-- What a find checks, in this order, and how many items it may return. -/
structure Checked (c : Collection α) (request : Option Page)
    (answer : Except Error (Results α)) : Prop where
  size_iff : (∃ reason, answer = .error (.invalidInput reason)) ↔
    ∃ p ∈ request, c.setup.config.maxPageSize < p.size
  size_reason : ∀ p ∈ request, c.setup.config.maxPageSize < p.size →
    answer = .error (.invalidInput
      s!"page size {p.size.toNat} exceeds maximum {c.setup.config.maxPageSize.toNat}")
  cursor_iff : (∃ reason, answer = .error (.invalidCursor reason)) ↔
    (∀ p ∈ request, p.size ≤ c.setup.config.maxPageSize) ∧
      ∃ p ∈ request, ∃ cursor ∈ p.current, Position.Misfits cursor c.type.kindName
  length_le : ∀ p ∈ request, ∀ results, answer = .ok results →
    results.items.length ≤ p.size.toNat

/-- An answer to a page that is not too large is checked if it looks at the cursor first. -/
private theorem checked_of_fits {c : Collection α} {request : Option Page}
    (hfits : ∀ p ∈ request, p.size ≤ c.setup.config.maxPageSize)
    {answer : Except Error (Results α)} (hinput : ∀ reason, answer ≠ .error (.invalidInput reason))
    (hcursor : (∃ reason, answer = .error (.invalidCursor reason)) ↔
      ∃ cursor ∈ request.bind Page.current, Position.Misfits cursor c.type.kindName)
    (hlength : ∀ p ∈ request, ∀ results, answer = .ok results →
      results.items.length ≤ p.size.toNat) : c.Checked request answer where
  size_iff := by
    refine iff_of_false (fun ⟨reason, h⟩ => hinput reason h) ?_
    rintro ⟨p, hp, hsize⟩
    exact UInt32.not_lt.2 (hfits p hp) hsize
  size_reason p hp hsize := absurd hsize (UInt32.not_lt.2 (hfits p hp))
  cursor_iff := by
    -- the size is in order, so the cursor is what is left to look at
    rw [hcursor, and_iff_right hfits]
    cases request with
    | none => simp
    | some p => simp
  length_le := hlength

/-- Every find checks the size first and the cursor behind it. -/
theorem checked_findOn (c : Collection α) (request : Option Page) (pred : α → Bool) (s : Session)
    (store : Store) : c.Checked request (c.findOn request pred s store).result := by
  rcases c.setup.config.checkPageSize_eq request with ⟨hcheck, hfits⟩ | ⟨p, rfl, hsize, hcheck⟩
  · cases hanswer : (c.findOn request pred s store).result with
    | ok results =>
      obtain ⟨-, q, hq, rfl⟩ := findOn_ok_iff.1 hanswer
      refine checked_of_fits hfits nofun (iff_of_false nofun ?_) ?_
      · rintro ⟨cursor, hcursor, hmisfits⟩
        exact Session.fits_of_query hq cursor hcursor hmisfits
      · -- a page holds as many items as were asked for at most
        rintro p rfl _ ⟨⟩
        rw [q.search_some, List.length_map]
        exact List.length_take_le ..
    | error e =>
      have hquery : s.query store c.type (request.bind Page.current) = .error e := by
        rcases findOn_error_iff.1 hanswer with herror | ⟨-, hquery⟩
        · cases hcheck.symm.trans herror
        · exact hquery
      rcases Session.query_error_cases hquery with
        ⟨cursor, hcursor, hmisfits, reason, rfl⟩ | ⟨hcursor, hunreadable⟩
      · -- whatever else the query may have met, it is the cursor that is told
        exact checked_of_fits hfits nofun
          (iff_of_true ⟨reason, rfl⟩ ⟨cursor, hcursor, hmisfits⟩) nofun
      · have hnone : ¬ ∃ cursor ∈ request.bind Page.current,
            Position.Misfits cursor c.type.kindName :=
          fun ⟨cursor, hmem, hmisfits⟩ => hcursor cursor hmem hmisfits
        cases hunreadable <;> exact checked_of_fits hfits nofun (iff_of_false nofun hnone) nofun
  · -- the query is not opened, so its cursor may be what it will
    rw [findOn_error_iff.2 (.inl hcheck)]
    refine ⟨iff_of_true ⟨_, rfl⟩ ⟨p, rfl, hsize⟩, ?_, iff_of_false nofun ?_, nofun⟩
    · rintro _ ⟨⟩ -
      rfl
    · rintro ⟨hfits, -⟩
      exact UInt32.not_lt.2 (hfits p rfl) hsize

/-- Under a setup that was built, every call of a collection is checked in one order.  A call that
    passes no transaction, or one of another layer, is refused for just that, whatever else is
    wrong with it.  Then a find, in a transaction of this store or outside of transactions, is
    refused if its page is larger than the configuration allows, and then if its cursor cannot be
    read or is one of another kind.  A find that is answered returns no more items than it was
    asked for, and the first page of the collection is never too large. -/
theorem boundary_exact {σ : Type} [Registrar σ] {setup built : Setup} {files : FileTree}
    {registry : Registry} {datastore : Option σ}
    (hbuilt : (setup.build files registry datastore).result = .ok built) (c : Collection α)
    (hc : c.setup = built) (store : Store) :
    (∀ (β : Type) (a : Access β),
      a.inside none store = ⟨.error .nullTransaction, store, none⟩ ∧
      ∀ typeName, a.inside (some (.foreign typeName)) store =
        ⟨.error (.transactionTypeMismatch CallerTransaction.ownTypeName typeName), store,
          some (.foreign typeName)⟩) ∧
    (∀ request pred answer, c.Finds request pred store answer → c.Checked request answer) ∧
    ∀ pred answer, c.Finds (some c.firstPage) pred store answer →
      ∀ reason, answer ≠ .error (.invalidInput reason) := by
  have hchecked (request : Option Page) (pred : α → Bool) (answer : Except Error (Results α))
      (h : c.Finds request pred store answer) : c.Checked request answer := by
    obtain ⟨s, rfl⟩ := h.exists_findOn
    exact c.checked_findOn request pred s store
  refine ⟨fun β a => ?_, hchecked, fun pred answer h reason hanswer => ?_⟩
  · simp only [a.inside_eq]
    exact ⟨rfl, fun _ => rfl⟩
  · -- the first page has the default size, which the setup has been checked for
    obtain ⟨p, hp, hsize⟩ := (hchecked _ pred answer h).size_iff.1 ⟨reason, hanswer⟩
    obtain rfl := Option.some.inj hp
    subst hc
    exact UInt32.not_lt.2 (Setup.fits_of_build hbuilt).2 hsize

/-- Pages of one item. -/
def narrow : Setup := { config := { defaultPageSize := 1, maxPageSize := 1 } }

/-- A transaction that is rolled back at once. -/
def ended : TransactionalHandle :=
  ((TransactionalHandle.begin Store.empty).1.finish .rollback Store.empty).state

/-- The page that starts at a task. -/
def taskPage (size : UInt32) : Page := .startingAt size (Position.before "Task" "a").encode

/-- A store without kinds has a lot against a page of two notes that starts at a task, in a
    transaction that has finished. -/
theorem boundary_exact_narrow :
    (narrow.build (.directory []) .empty (some Store.empty)).result = .ok narrow ∧
      (findIn ⟨Note.type, narrow⟩ (some (.foreign "Remote")) .empty (some (taskPage 2))
          fun _ => true).result =
        .error (.transactionTypeMismatch CallerTransaction.ownTypeName "Remote") ∧
      (findIn ⟨Note.type, narrow⟩ (some (.own ended)) .empty (some (taskPage 2))
          fun _ => true).result = .error (.invalidInput "page size 2 exceeds maximum 1") ∧
      (∃ reason, (findIn ⟨Note.type, narrow⟩ (some (.own ended)) .empty (some (taskPage 1))
          fun _ => true).result = .error (.invalidCursor reason)) ∧
      ∀ reason, (find ⟨Note.type, narrow⟩ .empty (some (firstPage ⟨Note.type, narrow⟩))
          fun _ => true).1 ≠ .error (.invalidInput reason) := by
  have hbuilt : (narrow.build (.directory []) .empty (some Store.empty)).result = .ok narrow := rfl
  have hmisfits : Position.Misfits (Position.before "Task" "a").encode "Note" :=
    .inr ⟨_, Position.decode_encode _, by decide⟩
  obtain ⟨hinside, hchecked, hfirst⟩ :=
    boundary_exact hbuilt ⟨Note.type, narrow⟩ rfl .empty
  obtain ⟨-, hforeign⟩ :=
    hinside _ (.find ⟨Note.type, narrow⟩ (some (taskPage 2)) fun _ => true)
  refine ⟨hbuilt, congrArg Outcome.result (hforeign "Remote"), ?_, ?_, hfirst _ _ .alone⟩
  · -- the size is checked before the cursor, and both in the transaction that has ended
    exact (hchecked _ _ _ (.inside ended)).size_reason (taskPage 2) rfl (by decide)
  · refine (hchecked _ _ _ (.inside ended)).cursor_iff.2
      ⟨?_, taskPage 1, rfl, _, rfl, hmisfits⟩
    rintro _ ⟨⟩
    decide

end Collection

end EntityStore
