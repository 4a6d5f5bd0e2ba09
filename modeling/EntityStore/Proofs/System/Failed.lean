import EntityStore.Proofs.Session.PointReads
import EntityStore.Proofs.System.LifeCycle

/-! # Calls that fail

A call that fails on its way to the data changes nothing, whatever went wrong: neither the store
nor a registry nor what any transaction holds back.  There is one trace that a failure may leave.
A load in an open transaction remembers the record that it finds in the store before it tries to
decode it.

* `Operation.Stumbles`      a load that comes upon a record that its type cannot decode
* `Session.remember`        a session that has come upon a record
* `Operation.run_of_error`, `Access.on_of_failed`, `Action.run_of_error`  what failures leave
* `System.failed_exact`     what a call that fails leaves of a system -/

namespace EntityStore

/-- An answer that is an error behind a map was one in front of it. -/
theorem Except.error_of_map {α β : Type} {answer : Except Error α} {f : α → β} {e : Error}
    (h : answer.map f = .error e) : answer = .error e := by
  cases answer with
  | ok x => cases h
  | error e' => exact congrArg Except.error (Except.error.inj h)

/-! ## Sessions -/

namespace Session

variable {α : Type} {s : Session} {store : Store} {e : Error}

/-- A session that has come upon a record: its transaction remembers the version of the record,
    unless it remembers one already. -/
def remember (s : Session) (key : RecordKey) (r : Record) : Session :=
  ⟨s.transaction.map fun t => { t with reads := t.reads.insertIfNew key r.version }⟩

/-- What a session says of its transaction, but for what the transaction has read. -/
def outlook (s : Session) : Option (UInt64 × TransactionStatus × WriteSet) :=
  s.transaction.map fun t => (t.id, t.status, t.writes)

/-- A version that is remembered does not show. -/
@[simp] theorem outlook_remember (s : Session) (key : RecordKey) (r : Record) :
    (s.remember key r).outlook = s.outlook := by
  obtain ⟨transaction⟩ := s
  cases transaction <;> rfl

/-- A save that fails has changed nothing. -/
theorem save_of_error {type : EntityType α} {entity : α}
    (h : (s.save store type entity).result = .error e) :
    s.save store type entity = ⟨.error e, store, s⟩ := by
  rw [save] at h ⊢
  cases hencode : type.encode entity with
  -- each way to fail leaves the store and the session where they are
  | error cause => simp_all
  | ok body =>
    cases hactive : s.active with
    | error e' => simp_all
    | ok transaction =>
      cases transaction with
      | none => cases hwrite : store.write ⟨type.kindName, type.id entity⟩ (some body) <;> simp_all
      | some t => cases htable : store.table type.kindName <;> simp_all

/-- A delete that fails has changed nothing.  In a transaction only the look at the record can
    fail. -/
theorem delete_of_error {type : EntityType α} {id : String}
    (h : (s.delete store type id).result = .error e) :
    s.delete store type id = ⟨.error e, store, s⟩ := by
  rw [delete] at h ⊢
  cases hactive : s.active with
  | error e' => simp_all
  | ok transaction =>
    cases transaction with
    | none => cases hwrite : store.write ⟨type.kindName, id⟩ none <;> simp_all
    | some t =>
      cases hheld : t.writes[(⟨type.kindName, id⟩ : RecordKey)]? with
      -- what is held back is deleted without a look at the store
      | some body => simp_all
      | none => cases hread : store.read ⟨type.kindName, id⟩ <;> simp_all

/-- A load outside of an open transaction leaves no trace, whatever it answers. -/
theorem load_of_not_active (hs : ¬ s.isActive = true) (store : Store) (type : EntityType α)
    (id : String) :
    (s.load store type id).store = store ∧ (s.load store type id).state = s := by
  obtain ⟨transaction⟩ := s
  cases transaction with
  | none =>
    have hload := load_plain store type id
    simp only [plain] at hload
    rw [hload]
    exact ⟨rfl, rfl⟩
  | some t =>
    have ht : t.status ≠ .active := fun ht => hs (isActive_iff.2 ⟨t, rfl, ht⟩)
    obtain ⟨hstore, hstate, -⟩ := (Operation.load type id).run_finished ht store
    exact ⟨hstore, hstate⟩

end Session

namespace Operation

variable {β : Type} {s : Session} {store : Store} {e : Error}

/-- The load of an open transaction that comes upon a record in the store, past all writes that
    are held back, and cannot decode it. -/
def Stumbles (s : Session) (store : Store) (key : RecordKey) (r : Record) : Operation β → Prop
  | .load type id => key = ⟨type.kindName, id⟩ ∧ s.isActive = true ∧ s.held? key = none ∧
      store.record? key = some r ∧ ∃ cause, type.decode r.body = .error cause
  | _ => False

/-- A session without an open transaction stumbles over nothing. -/
theorem not_stumbles {op : Operation β} (hs : ¬ s.isActive = true) (key : RecordKey)
    (r : Record) : ¬ op.Stumbles s store key r := by
  cases op with
  | load type id =>
    rintro ⟨-, hactive, -⟩
    exact hs hactive
  | _ => exact id

/-- What an operation that fails leaves of its session: all of it as it was, but that the record
    is remembered that the operation stumbles over, if it does. -/
def Leaves (op : Operation β) (store : Store) (s s' : Session) : Prop :=
  (∀ key r, ¬ op.Stumbles s store key r) ∧ s' = s ∨
    ∃ key r, op.Stumbles s store key r ∧ s' = s.remember key r

/-- A load that fails has changed nothing, unless it has come upon a record. -/
theorem load_of_error {α : Type} {type : EntityType α} {id : String}
    (h : (s.load store type id).result = .error e) :
    (s.load store type id).store = store ∧
      (load type id).Leaves store s (s.load store type id).state := by
  by_cases hactive : s.isActive = true
  case neg =>
    obtain ⟨hstore, hstate⟩ := Session.load_of_not_active hactive store type id
    exact ⟨hstore, .inl ⟨not_stumbles hactive, hstate⟩⟩
  obtain ⟨t, rfl, ht⟩ := Session.isActive_iff.1 hactive
  rw [Session.load_active ht] at h ⊢
  refine ⟨rfl, ?_⟩
  cases hheld : t.writes[(⟨type.kindName, id⟩ : RecordKey)]? with
  | some body =>
    -- a write that is held back hides the record
    refine .inl ⟨?_, ?_⟩
    · rintro _ r ⟨rfl, -, hnone, -⟩
      cases hnone.symm.trans hheld
    · simp only [Transaction.look, hheld, reduceCtorEq, false_and, if_false]
  | none =>
    simp only [hheld] at h
    cases hregistered : store.isRegistered type.kindName with
    | false =>
      -- there is no table to look into, so there is nothing to remember
      refine .inl ⟨?_, ?_⟩
      · rintro _ r ⟨rfl, -, -, hrecord, -⟩
        rw [Store.record?, Store.records_of_not_registered hregistered] at hrecord
        cases hrecord
      · simp only [Transaction.look, hregistered, Bool.false_eq_true, and_false, if_false]
    | true =>
      -- the look went well, so it was the record that failed
      rw [if_pos hregistered] at h
      obtain ⟨r, cause, hrecord, hdecode, -⟩ := Session.decodeFound_error_iff.1 h
      refine .inr ⟨_, r, ⟨rfl, hactive, hheld, hrecord, cause, hdecode⟩, ?_⟩
      simp only [Transaction.look, hheld, hregistered, and_self, if_true, hrecord]
      rfl

/-- An operation on data that fails leaves the store as it is, and its session but for what it
    stumbles over. -/
theorem run_of_error {op : Operation β} (hop : op.ending? = none)
    (h : (op.run s store).result = .error e) :
    (op.run s store).store = store ∧ op.Leaves store s (op.run s store).state := by
  cases op with
  -- only a load is remembered when it fails
  | load type id => exact load_of_error h
  | save type entity =>
    rw [run, Session.save_of_error h]
    exact ⟨rfl, .inl ⟨fun _ _ => not_false, rfl⟩⟩
  | delete type id =>
    rw [run, Session.delete_of_error h]
    exact ⟨rfl, .inl ⟨fun _ _ => not_false, rfl⟩⟩
  | query type start => exact ⟨rfl, .inl ⟨fun _ _ => not_false, rfl⟩⟩
  | finish ending => cases hop

end Operation

/-! ## Clients -/

/-- An access that fails leaves what its operation leaves when it fails.  A find may fail on its
    page, without an operation, and a query leaves no trace either. -/
theorem Access.on_of_failed {β : Type} {a : Access β} {s : Session} {store : Store} {e : Error}
    (h : (a.on s store).result = .error e) :
    (a.on s store).store = store ∧ a.operation.2.Leaves store s (a.on s store).state := by
  cases a with
  | get c id =>
    have hload : (s.load store c.type id).result = .error e := Except.error_of_map h
    exact Operation.load_of_error hload
  | put c entity => exact (Operation.save c.type entity).run_of_error rfl h
  | delete c id => exact (Operation.delete c.type id).run_of_error rfl h
  | find c request pred => exact ⟨rfl, .inl ⟨fun _ _ => not_false, rfl⟩⟩

namespace Client

variable {β : Type} {c : Client} {store : Store} {out : Outcome Client β}

/-- A client whose session has come upon a record. -/
def remember (c : Client) (key : RecordKey) (r : Record) : Client :=
  match c.session? with
  | some s => c.withSession (s.remember key r)
  | none => c

/-- A client remembers in its session. -/
theorem remember_eq {s : Session} (hs : c.session? = some s) (key : RecordKey) (r : Record) :
    c.remember key r = c.withSession (s.remember key r) := by
  rw [remember, hs]

/-- A client that remembers a version looks the same. -/
theorem outlook_remember (c : Client) (key : RecordKey) (r : Record) :
    (c.remember key r).session?.map Session.outlook = c.session?.map Session.outlook := by
  match c with
  | .session s => exact congrArg some (s.outlook_remember key r)
  | .handle h => exact congrArg some (h.session.outlook_remember key r)
  | .transaction t | .caller (some (.own t)) =>
    exact congrArg some (t.session.outlook_remember key r)
  | .caller (some (.foreign _)) | .caller none | .dropped none | .dropped (some _) => rfl

/-- An operation runs in the session of its client. -/
theorem operate_cases {op : Operation β} (h : c.operate op store = some out) :
    ∃ s, c.session? = some s ∧ out = (op.run s store).mapState c.withSession := by
  match c with
  | .session s => exact ⟨s, rfl, (Option.some.inj h).symm⟩
  | .handle h' => exact ⟨h'.session, rfl, (Option.some.inj h).symm⟩
  | .transaction t | .caller (some (.own t)) => exact ⟨t.session, rfl, (Option.some.inj h).symm⟩

/-- An access runs there as well, or there is none and the client is refused. -/
theorem access_cases {a : Access β} (h : c.access a store = some out) :
    (∃ s, c.session? = some s ∧ out = (a.on s store).mapState c.withSession) ∨
      c.session? = none ∧ ∃ e, out = ⟨.error e, store, c⟩ := by
  cases hs : c.session? with
  | some s => exact .inl ⟨s, rfl, access_eq hs h⟩
  | none =>
    match c with
    | .caller none | .caller (some (.foreign _)) =>
      rw [access, a.inside_eq] at h
      exact .inr ⟨rfl, _, (Option.some.inj h).symm⟩

end Client

namespace Action

variable {β : Type} {a : Action β} {c : Client} {store : Store} {out : Outcome Client β}

/-- The operation that an action makes in the session of its client. -/
def operation? : Action β → Option ((γ : Type) × Operation γ)
  | .operate op => some ⟨_, op⟩
  | .access a => some a.operation
  | _ => none

/-- The action of a client whose session stumbles over a record. -/
def Stumbles (a : Action β) (c : Client) (store : Store) (key : RecordKey) (r : Record) : Prop :=
  ∃ s op, c.session? = some s ∧ a.operation? = some op ∧ op.2.Stumbles s store key r

/-- What an operation leaves of a session is what its action leaves of the client. -/
private theorem leaves_of_operation {op : (γ : Type) × Operation γ} {s s' : Session}
    (hop : a.operation? = some op) (hs : c.session? = some s) (h : op.2.Leaves store s s') :
    (∀ key r, ¬ a.Stumbles c store key r) ∧ c.withSession s' = c ∨
      ∃ key r, a.Stumbles c store key r ∧ c.withSession s' = c.remember key r := by
  rcases h with ⟨hnot, rfl⟩ | ⟨key, r, hstumbles, rfl⟩
  · refine .inl ⟨?_, Client.withSession_self hs⟩
    rintro key r ⟨s, op', hs', hop', hstumbles⟩
    obtain rfl := Option.some.inj (hs.symm.trans hs')
    obtain rfl := Option.some.inj (hop.symm.trans hop')
    exact hnot key r hstumbles
  · exact .inr ⟨key, r, ⟨s, op, hs, hop, hstumbles⟩, (Client.remember_eq hs key r).symm⟩

/-- An action on data that fails leaves the store as it is, and its client but for what it
    stumbles over. -/
theorem run_of_error {e : Error} (hdata : a.isData = true) (hrun : a.run? c store = some out)
    (h : out.result = .error e) :
    out.store = store ∧ ((∀ key r, ¬ a.Stumbles c store key r) ∧ out.state = c ∨
      ∃ key r, a.Stumbles c store key r ∧ out.state = c.remember key r) := by
  cases a with
  | operate op =>
    -- an operation that ends the transaction is no action on data
    obtain ⟨s, hs, rfl⟩ := Client.operate_cases hrun
    obtain ⟨hstore, hleaves⟩ := op.run_of_error (Option.isNone_iff_eq_none.1 hdata) h
    exact ⟨hstore, leaves_of_operation rfl hs hleaves⟩
  | access a =>
    rcases Client.access_cases hrun with ⟨s, hs, rfl⟩ | ⟨hs, e, rfl⟩
    · obtain ⟨hstore, hleaves⟩ := a.on_of_failed h
      exact ⟨hstore, leaves_of_operation rfl hs hleaves⟩
    · -- without a session there is none that could stumble
      refine ⟨rfl, .inl ⟨?_, rfl⟩⟩
      rintro key r ⟨s, op, hs', -⟩
      cases hs.symm.trans hs'
  | _ => cases hdata

end Action

/-! ## Systems -/

namespace Call

variable {β : Type}

/-- Whether a call looks data up or changes it. -/
def isData : Call β → Bool
  | .access _ | .findAll _ => true
  | .act _ a => a.isData
  | _ => false

/-- The call of a client whose session stumbles over a record. -/
def Stumbles (w : System) (n : Nat) (key : RecordKey) (r : Record) : Call β → Prop
  | .act m a => m = n ∧ ∃ c, w.clients n = some c ∧ a.Stumbles c w.store key r
  | _ => False

end Call

namespace System

variable {w : System}

/-- Outside of transactions a call that fails leaves nothing behind. -/
private theorem alone_of_error {β : Type} {a : Access β} {e : Error}
    (h : (a.alone w.store).1 = .error e) : { w with store := (a.alone w.store).2 } = w := by
  rw [a.alone_eq] at h ⊢
  rw [Collection.runPlain, (a.on_of_failed h).1]

/-- A call on data that fails leaves the system as it is, but for what it stumbles over. -/
theorem call_of_error {β : Type} {c : Call β} (hdata : c.isData = true) {e : Error} {w' : System}
    (h : w.call? c = some (.error e, w')) :
    (∀ n key r, ¬ c.Stumbles w n key r) ∧ w' = w ∨
      ∃ n client key r, w.clients n = some client ∧ c.Stumbles w n key r ∧
        w' = w.put n (client.remember key r) w.store := by
  cases c with
  | access a =>
    obtain ⟨hanswer, rfl⟩ := Prod.mk.inj (Option.some.inj h)
    exact .inl ⟨fun _ _ _ => not_false, alone_of_error hanswer⟩
  | findAll c =>
    obtain ⟨hanswer, rfl⟩ := Prod.mk.inj (Option.some.inj h)
    -- all entities are found by a find without a page
    have hfind : ((Access.find c none fun _ => true).alone w.store).1 = .error e :=
      Except.error_of_map hanswer
    exact .inl ⟨fun _ _ _ => not_false, alone_of_error hfind⟩
  | act n a =>
    simp only [call?] at h
    cases hclient : w.clients n with
    | none => simp [hclient] at h
    | some client =>
      simp only [hclient] at h
      obtain ⟨out, hout, heq⟩ := Option.map_eq_some_iff.1 h
      obtain ⟨hanswer, rfl⟩ := Prod.mk.inj heq
      -- the others keep their clients, so only the one that acts has to be looked at
      obtain ⟨hstore, ⟨hnot, hstate⟩ | ⟨key, r, hstumbles, hstate⟩⟩ :=
        a.run_of_error hdata hout hanswer
      · refine .inl ⟨?_, ?_⟩
        · rintro m key r ⟨rfl, client', hclient', hstumbles⟩
          obtain rfl := Option.some.inj (hclient.symm.trans hclient')
          exact hnot key r hstumbles
        · rw [hstore, hstate, put_self hclient]
      · refine .inr ⟨n, client, key, r, hclient, ⟨rfl, client, hclient, hstumbles⟩, ?_⟩
        rw [hstore, hstate]
  | _ => cases hdata

/-- A call that looks data up or changes it and fails, for whatever reason and in whatever state,
    leaves the store and the registries as they are, and the id, the status and the pending writes
    of every transaction.  The whole system is as it was, but for one case: the load of an open
    transaction has come upon a record that its type cannot decode, and the transaction remembers
    the version of this record, unless it remembers one already. -/
theorem failed_exact {β : Type} {c : Call β} (hdata : c.isData = true) {e : Error} {w' : System}
    (h : w.call? c = some (.error e, w')) :
    w'.store = w.store ∧ w'.registries = w.registries ∧
      (∀ n, (w'.session? n).map Session.outlook = (w.session? n).map Session.outlook) ∧
      ((∀ n key r, ¬ c.Stumbles w n key r) ∧ w' = w ∨
        ∃ n client key r, w.clients n = some client ∧ c.Stumbles w n key r ∧
          w' = w.put n (client.remember key r) w.store) := by
  rcases call_of_error hdata h with ⟨hnot, rfl⟩ | ⟨n, client, key, r, hclient, hstumbles, rfl⟩
  · exact ⟨rfl, rfl, fun _ => rfl, .inl ⟨hnot, rfl⟩⟩
  · refine ⟨rfl, rfl, fun m => ?_, .inr ⟨n, client, key, r, hclient, hstumbles, rfl⟩⟩
    -- of all clients at most the one that stumbled has moved, and that does not show
    rw [session?_put]
    split
    · next hm => rw [hm, session?_eq hclient, client.outlook_remember]
    · rfl

/-- A note without a body is saved.  A transaction that has saved another note is going to load
    it. -/
def unreadable : List Request :=
  [⟨.store (.register Note.type.kind)⟩, ⟨.enter 0 .plain⟩,
    ⟨.act 0 (.operate (.save Session.bare (Note.of "a" "")))⟩, ⟨.enter 1 .begun⟩,
    ⟨.act 1 (.operate (.save Note.type (Note.of "b" "new")))⟩]

/-- That load, which fails. -/
def unread : Call (Option (Row Json)) := .act 1 (.operate (.load Note.type "a"))

/-- The load fails, and behind it the transaction remembers the version of the record. -/
theorem failed_exact_unread :
    ((init.run unreadable).call? unread).map Prod.fst =
        some (.error (.serialization (.missingField "body"))) ∧
      ((init.run unreadable).step ⟨unread⟩).store = (init.run unreadable).store ∧
      (((init.run unreadable).step ⟨unread⟩).session? 1).map Session.outlook =
        ((init.run unreadable).session? 1).map Session.outlook ∧
      ∃ client, (init.run unreadable).clients 1 = some client ∧
        ((init.run unreadable).step ⟨unread⟩).clients 1 =
          some (client.remember ⟨"Note", "a"⟩ ⟨1, .obj [("id", .str "a")]⟩) := by
  have hrecord : (init.run unreadable).store.record? ⟨"Note", "a"⟩ =
      some ⟨1, .obj [("id", .str "a")]⟩ := rfl
  have hcall : (init.run unreadable).call? unread =
      some (.error (.serialization (.missingField "body")),
        (init.run unreadable).step ⟨unread⟩) := by
    with_unfolding_all rfl
  obtain ⟨hstore, -, houtlook, hcases⟩ := failed_exact rfl hcall
  refine ⟨congrArg (Option.map Prod.fst) hcall, hstore, houtlook 1, ?_⟩
  -- the record was looked at, so it is remembered
  rcases hcases with ⟨hnot, -⟩ | ⟨n, client, key, r, hclient, hstumbles, hstep⟩
  · exact absurd
      ⟨rfl, _, rfl, _, _, rfl, rfl, rfl, rfl, rfl, hrecord, .missingField "body", rfl⟩
      (hnot 1 ⟨"Note", "a"⟩ _)
  · obtain ⟨rfl, -, -, s, op, -, hop, hstumbles⟩ := hstumbles
    obtain rfl := Option.some.inj hop
    obtain ⟨rfl, -, -, hrecord', -⟩ := hstumbles
    obtain rfl := Option.some.inj (hrecord.symm.trans hrecord')
    exact ⟨client, hclient, (congrArg (clients · 1) hstep).trans (clients_put_self ..)⟩

end System

end EntityStore
