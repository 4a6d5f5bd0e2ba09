import EntityStore.Proofs.Session.PointReads
import EntityStore.Proofs.System.Run

/-! # Kinds that are known

A call through a collection fails for want of its kind only if the store does not hold the kind.
Whatever else goes wrong, with the page, the cursor, the entity, the records or the transaction,
is told as what it is.

* `Known`                 an answer that does not say that a kind is missing
* `Session.known_load`, `Session.known_save`, `Session.known_delete`, `Session.known_query`
* `Access.known_on`       no access to a registered kind finds it missing
* `System.known_call`     nor does a call of a run -/

namespace EntityStore

/-- A token is refused as a cursor and for nothing else. -/
theorem Position.decodeFor_error {cursor : Cursor} {kind : String} {e : Error}
    (h : decodeFor cursor kind = .error e) : ∃ reason, e = .invalidCursor reason := by
  rw [decodeFor] at h
  rcases decode_cases cursor with ⟨reason, hdecode⟩ | ⟨-, p, -, -, hdecode⟩
  · rw [hdecode] at h
    exact ⟨reason, (Except.error.inj h).symm⟩
  · -- the token is one of another kind
    simp only [hdecode, bind, Except.bind] at h
    split at h
    · cases h
    · exact ⟨_, (Except.error.inj h).symm⟩

/-- An answer that does not say that a kind is missing. -/
def Known {β : Type} (answer : Except Error β) : Prop :=
  ∀ name, answer ≠ .error (.kindNotRegistered name)

/-- An answer that is no error names no kind. -/
theorem known_ok {β : Type} (x : β) : Known (.ok x : Except Error β) := nofun

/-- What is done with an answer names no kind. -/
theorem Known.map {β γ : Type} {answer : Except Error β} (h : Known answer) (f : β → γ) :
    Known (answer.map f) := by
  cases answer with
  | ok x => exact known_ok _
  | error e => exact fun name he => h name (congrArg Except.error (Except.error.inj he))

/-- A page that is too large says nothing of kinds. -/
theorem Config.known_checkPageSize (c : Config) (request : Option Page) :
    Known (c.checkPageSize request) := by
  cases request with
  | none => exact known_ok ()
  | some p =>
    rw [checkPageSize]
    split
    · nofun
    · exact known_ok ()

namespace Session

variable {α : Type} {s : Session} {store : Store} {type : EntityType α}

/-- A session is refused for one reason only. -/
theorem active_error {e : Error} (h : s.active = .error e) : e = .transactionNotActive := by
  unfold active at h
  split at h
  · cases h
  · split at h
    · cases h
    · exact (Except.error.inj h).symm

/-- A load under a registered kind does not miss it. -/
theorem known_load (h : store.isRegistered type.kindName = true) (s : Session) (id : String) :
    Known (s.load store type id).result := by
  intro name hname
  cases hactive : s.active with
  | error e =>
    obtain rfl := active_error hactive
    simp [load, hactive] at hname
  | ok transaction =>
    -- the kind is registered, so what fails is the decoding
    rw [load_visible hactive, if_pos (.inr h)] at hname
    obtain ⟨r, cause, -, -, heq⟩ := decodeFound_error_iff.1 hname
    cases heq

/-- A save under a registered kind does not miss it. -/
theorem known_save (h : store.isRegistered type.kindName = true) (s : Session) (entity : α) :
    Known (s.save store type entity).result := by
  intro name hname
  obtain ⟨t, -, ht⟩ := Store.table_of_registered h
  -- the entity may not encode and the transaction be finished; the kind is there
  cases hencode : type.encode entity with
  | error cause => simp [save, hencode] at hname
  | ok body =>
    cases hactive : s.active with
    | error e =>
      obtain rfl := active_error hactive
      simp [save, hencode, hactive] at hname
    | ok transaction =>
      cases transaction <;> simp [save, hencode, hactive, Store.write, ht] at hname

/-- A delete under a registered kind does not miss it. -/
theorem known_delete (h : store.isRegistered type.kindName = true) (s : Session) (id : String) :
    Known (s.delete store type id).result := by
  intro name hname
  -- the table is there, whatever the session is
  obtain ⟨t, -, ht⟩ := Store.table_of_registered h
  cases hactive : s.active with
  | error e =>
    obtain rfl := active_error hactive
    simp [delete, hactive] at hname
  | ok transaction =>
    cases transaction with
    | none => simp [delete, hactive, Store.write, ht] at hname
    | some t =>
      cases hheld : t.writes[(⟨type.kindName, id⟩ : RecordKey)]? <;>
        simp [delete, hactive, hheld, Store.read_eq, h] at hname

/-- The rows of a registered kind can be looked for. -/
private theorem known_rowsFrom (h : store.isRegistered type.kindName = true) (s : Session)
    (start : Option String) : Known (s.rowsFrom store type start) := by
  intro name hname
  cases hactive : s.active with
  | error e =>
    obtain rfl := active_error hactive
    obtain ⟨records, hread, -⟩ := Store.readFrom_of_registered h start
    simp [rowsFrom, hread, hactive, bind, Except.bind] at hname
  | ok transaction =>
    -- rows are looked for and decoded, and only the decoding can fail
    obtain ⟨records, hrows, -⟩ := exists_rowsFrom hactive h start
    obtain ⟨_, _, _, cause, -, -, heq, -⟩ := decodeRows_error_iff.1 (hrows.symm.trans hname)
    cases heq

/-- A query of a registered kind does not miss it. -/
theorem known_query (h : store.isRegistered type.kindName = true) (s : Session)
    (start : Option Cursor) : Known (s.query store type start) := by
  have hrows (first : Option String) :
      Known (do return (⟨type.kindName, ← s.rowsFrom store type first⟩ : Query α)) :=
    (known_rowsFrom h s first).map (Query.mk type.kindName)
  -- a query without a start, at an id, or at the end position
  cases start with
  | none => exact hrows none
  | some cursor =>
    intro name hname
    cases hcursor : Position.decodeFor cursor type.kindName with
    | error e =>
      simp only [query, hcursor, bind, Except.bind] at hname
      obtain ⟨reason, heq⟩ := Position.decodeFor_error hcursor
      cases heq.symm.trans (Except.error.inj hname)
    | ok p =>
      obtain ⟨kind, _ | id⟩ := p
      · obtain ⟨t, -, ht⟩ := Store.table_of_registered h
        simp [query, hcursor, ht, bind, Except.bind, pure, Except.pure] at hname
      · simp only [query, hcursor] at hname
        exact hrows (some id) name hname

end Session

namespace Access

/-- The name of the kind that an access goes to. -/
def kindName {β : Type} : Access β → String
  | .get c _ | .put c _ | .delete c _ | .find c _ _ => c.type.kindName

variable {β : Type} {store : Store}

/-- No access to a registered kind finds it missing. -/
theorem known_on (a : Access β) (h : store.isRegistered a.kindName = true) (s : Session) :
    Known (a.on s store).result := by
  cases a with
  | get c id => exact (Session.known_load h s id).map _
  | put c entity => exact Session.known_save h s entity
  | delete c id => exact Session.known_delete h s id
  | find c request pred =>
    -- the page is checked first, and the query is searched in behind it
    have hquery := Session.known_query h s (request.bind Page.current)
    rw [on, Collection.findOn]
    cases hsize : c.setup.config.checkPageSize request with
    | error e =>
      have hcheck := c.setup.config.known_checkPageSize request
      rw [hsize] at hcheck
      exact fun name hname => hcheck name (congrArg Except.error (Except.error.inj hname))
    | ok _ => exact hquery.map fun q => q.search request pred

/-- An access to a collection of a registered kind does not miss it. -/
theorem known_alone (a : Access β) (h : store.isRegistered a.kindName = true) :
    Known (a.alone store).1 := by
  rw [a.alone_eq]
  exact a.known_on h .plain

/-- An access in a transaction does not miss a registered kind either. -/
theorem known_inside (a : Access β) (h : store.isRegistered a.kindName = true)
    (t : Option CallerTransaction) : Known (a.inside t store).result := by
  rw [a.inside_eq]
  match t with
  | some (.own t) => exact a.known_on h t.session
  | some (.foreign _) => nofun
  | none => nofun

end Access

/-- The kind that a call goes to through a collection. -/
def Call.collectionKind? {β : Type} : Call β → Option String
  | .access a | .act _ (.access a) => some a.kindName
  | .findAll c => some c.type.kindName
  | _ => none

namespace System

variable {w w' : System}

/-- No call through a collection finds a kind missing that the store holds. -/
theorem known_call {β : Type} {c : Call β} {answer : Except Error β}
    (h : w.call? c = some (answer, w')) {name : String} (hname : c.collectionKind? = some name)
    (hregistered : w.store.isRegistered name = true) : Known answer := by
  cases c with
  | access a =>
    cases h
    cases hname
    exact a.known_alone hregistered
  | findAll c =>
    cases h
    cases hname
    exact (Access.known_alone (.find c none fun _ => true) hregistered).map Results.items
  | act n a =>
    cases a with
    | access a =>
      cases hname
      simp only [call?] at h
      split at h
      · cases h
      · obtain ⟨out, hout, heq⟩ := Option.map_eq_some_iff.1 h
        cases heq
        -- only what a caller passes is used by a collection
        simp only [Action.run?, Client.access] at hout
        split at hout
        · obtain rfl := Option.some.inj hout
          exact a.known_inside hregistered _
        · cases hout
    | _ => cases hname
  | _ => cases hname

end System

end EntityStore
