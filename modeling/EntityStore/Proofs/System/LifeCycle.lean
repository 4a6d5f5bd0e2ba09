import EntityStore.Proofs.System.Finished
import EntityStore.Proofs.System.Sessions

/-! # The life of a transaction

A transaction can be ended in two ways, through its handle and through its session, and both
may be tried again and again.  The first try decides what becomes of it.  From then on the
session stays as it is: its handle has nothing to do any more, and the session itself refuses.

* `Client.isTransactional`    a client behind a handle that was opened for a transaction
* `System.fate`               what the first of several calls that ends a transaction makes of it
* `System.clean_run`          a transaction that has finished remembers nothing
* `Action.run?_cases`         what a client with a transactional handle can do to its session
* `System.Holds.step_active`  what one call makes of an open transaction
* `System.Holds.run_active`   a run makes of it what its first ending makes of it
* `System.Settled`            what is left of a transaction that has finished
* `System.life_cycle`         the life of a transaction behind a transactional handle -/

namespace EntityStore

/-! ## Endings -/

/-- The status that an ending leaves.  Only a commit that is accepted commits. -/
def Ending.fate (ending : Ending) (accepted : Bool) : TransactionStatus :=
  match ending, accepted with
  | .commit, true => .committed
  | _, _ => .rolledBack

/-- Every ending ends. -/
theorem Ending.fate_ne_active (ending : Ending) (accepted : Bool) :
    ending.fate accepted ≠ .active := by
  cases ending <;> cases accepted <;> nofun

/-- A finished transaction is not active. -/
theorem Session.not_isActive {t : Transaction} (ht : t.status ≠ .active) :
    ¬ (Session.mk (some t)).isActive = true := by
  intro h
  obtain ⟨t', ⟨⟩, ht'⟩ := isActive_iff.1 h
  exact ht ht'

/-- An open transaction is ended as its answer says, and forgets all. -/
theorem Session.state_finish {t : Transaction} (ht : t.status = .active) (ending : Ending)
    (store : Store) :
    ((Session.mk (some t)).finish ending store).state =
      ⟨some (t.finish (ending.fate ((Session.mk (some t)).finish ending store).result.isOk))⟩ := by
  cases ending with
  | commit =>
    simp only [finish, commit, active_of_active ht]
    -- the status tells how the check at the commit went
    cases store.commit t.order t.reads t.writes with
    | mk result store => cases result <;> rfl
  | rollback =>
    simp only [finish, rollback, active_of_active ht]
    rfl

/-- A finished transaction cannot be ended again. -/
theorem Session.finish_of_finished {t : Transaction} (ht : t.status ≠ .active) (ending : Ending)
    (store : Store) :
    (Session.mk (some t)).finish ending store =
      ⟨.error .transactionNotActive, store, ⟨some t⟩⟩ := by
  cases ending <;> simp only [finish, commit, rollback, active_of_finished ht]

/-- A handle passes an ending on while the transaction is open, and then does nothing. -/
theorem Handle.finish_eq {h : Handle} (ht : h.transactional = true) (ending : Ending)
    (store : Store) :
    h.finish ending store = if h.session.isActive = true then
      (h.session.finish ending store).mapState h.withSession else ⟨.ok (), store, h⟩ :=
  if_pos ht

/-- The handle of a transaction passes an ending on while it is open, and is content otherwise. -/
theorem TransactionalHandle.finish_eq (t : TransactionalHandle) (ending : Ending)
    (store : Store) :
    t.finish ending store = if t.session.isActive = true then
      (t.session.finish ending store).mapState t.withSession else ⟨.ok (), store, t⟩ := by
  simp only [finish, Handle.finish_eq t.transactional]
  by_cases h : t.session.isActive = true
  · -- the handle and its transaction have one session
    have h' : t.handle.session.isActive = true := h
    simp only [h, h', if_true]
    rfl
  · have h' : ¬ t.handle.session.isActive = true := h
    simp only [h, h']
    rfl

/-! ## What is left of a transaction -/

/-- If the transaction of a session has finished, it remembers nothing. -/
def Session.Clean (s : Session) : Prop :=
  ∀ t, s = ⟨some t⟩ → t.status ≠ .active → t.reads = ∅ ∧ t.writes = ∅

/-- A transaction that has finished is left with nothing. -/
theorem Operation.clean_run {β : Type} (op : Operation β) {s : Session} {store : Store}
    (hwithin : s.Within store) (h : s.Clean) : (op.run s store).state.Clean := by
  rcases op.state_cases hwithin with
    ⟨rfl, hstate⟩ | ⟨t, rfl, -, hstate⟩ | ⟨t, rfl, ht, -, hstate⟩ | ⟨t, status, rfl, -, -, hstate⟩
  · rw [hstate]
    exact h
  · rw [hstate]
    exact h
  · -- the transaction is still open
    rw [hstate]
    rintro t' ⟨⟩ hfinished
    exact absurd ((op.status_advance t store).trans ht) hfinished
  · rw [hstate]
    rintro t' ⟨⟩ -
    exact ⟨rfl, rfl⟩

namespace World

variable {w : World}

/-- A step leaves finished transactions with nothing. -/
theorem clean_step (hw : w.Within) (h : ∀ n s, w.sessions n = some s → s.Clean) (step : Step) :
    ∀ n s, (w.step step).sessions n = some s → s.Clean := by
  intro n s hs
  rcases sessions_step_cases hs with
    ⟨hn, -⟩ | ⟨-, ⟨-, rfl⟩ | ⟨order, -, rfl⟩⟩ | ⟨s₀, β, op, hn, -, rfl⟩
  · exact h n s hn
  · -- a plain session has no transaction, and a new transaction is open
    nofun
  · rintro t ⟨⟩ hfinished
    exact absurd rfl hfinished
  · exact op.clean_run (hw n s₀ hn) (h n s₀ hn)

/-- A run leaves finished transactions with nothing. -/
theorem clean_run (hw : w.Within) (h : ∀ n s, w.sessions n = some s → s.Clean)
    (steps : List Step) : ∀ n s, (w.run steps).sessions n = some s → s.Clean := by
  induction steps generalizing w with
  | nil => exact h
  | cons step steps ih => exact ih (within_step hw step) (clean_step hw h step)

end World

/-- A transaction that has finished remembers nothing, in any state that a run reaches. -/
theorem System.clean_run {rs : List Request} {n : Nat} {s : Session}
    (h : (init.run rs).session? n = some s) : s.Clean := by
  obtain ⟨steps, hhosts, -⟩ := hosts_run rs
  exact World.clean_run (World.within_on .empty) nofun steps _ s (hhosts.session n s h)

/-! ## Clients with a transactional handle -/

namespace Client

/-- Whether a client is behind a handle that was opened for a transaction. -/
def isTransactional : Client → Bool
  | .handle h => h.transactional
  | .transaction _ => true
  | .caller (some (.own _)) => true
  | _ => false

/-- A client with its session moved on. -/
def withSession : Client → Session → Client
  | .session _, s => .session s
  | .handle h, s => .handle (h.withSession s)
  | .transaction t, s => .transaction (t.withSession s)
  | .caller (some (.own t)), s => .caller (some (.own (t.withSession s)))
  | c, _ => c

variable {β : Type} {c : Client} {s : Session} {store : Store}

/-- A client with its own session is the same client. -/
theorem withSession_self (hs : c.session? = some s) : c.withSession s = c := by
  match c with
  | .session _ | .handle _ | .transaction _ | .caller (some (.own _)) =>
    obtain rfl := Option.some.inj hs
    rfl
  | .caller (some (.foreign _)) | .caller none | .dropped _ => rfl

/-- An access runs in the session of the transaction that is passed. -/
theorem access_eq (hs : c.session? = some s) {a : Access β} {out : Outcome Client β}
    (h : c.access a store = some out) : out = (a.on s store).mapState c.withSession := by
  match c with
  | .caller (some (.own t)) =>
    obtain rfl := Option.some.inj hs
    obtain rfl := Option.some.inj h
    rw [a.inside_eq]
    rfl

section

variable (hc : c.isTransactional = true)

include hc

/-- The session of a client that was given one. -/
theorem session?_withSession (s : Session) : (c.withSession s).session? = some s := by
  match c with
  | .handle _ | .transaction _ | .caller (some (.own _)) => rfl

/-- A session does not change what wraps it. -/
theorem isTransactional_withSession (s : Session) :
    (c.withSession s).isTransactional = true := by
  match c with
  | .handle _ => exact hc
  | .transaction _ | .caller (some (.own _)) => rfl

/-- A client makes an operation in its session. -/
theorem operate_eq (hs : c.session? = some s) (op : Operation β) :
    c.operate op store = some ((op.run s store).mapState c.withSession) := by
  match c with
  | .handle _ | .transaction _ | .caller (some (.own _)) =>
    obtain rfl := Option.some.inj hs
    rfl

/-- A client passes an ending on to its session, if that is still active. -/
theorem finish_eq (hs : c.session? = some s) (ending : Ending) :
    c.finish ending store = some (if s.isActive = true then
      (s.finish ending store).mapState c.withSession else ⟨.ok (), store, c⟩) := by
  -- the wrappings that have a transaction hand the ending on to its session
  match c with
  | .handle h =>
    obtain rfl := Option.some.inj hs
    simp only [finish, Handle.finish_eq hc]
    split <;> rfl
  | .transaction t =>
    obtain rfl := Option.some.inj hs
    simp only [finish, t.finish_eq]
    split <;> rfl
  | .caller (some (.own t)) =>
    obtain rfl := Option.some.inj hs
    simp only [finish, CallerTransaction.finish, t.finish_eq]
    split <;> rfl

end

end Client

/-! ## Actions of a client -/

/-- An access ends nothing. -/
theorem Access.ending?_operation {β : Type} (a : Access β) : a.operation.2.ending? = none := by
  cases a <;> rfl

namespace Action

variable {β : Type}

/-- The ending that an action asks for, of the handle or of the session. -/
def ending? : Action β → Option Ending
  | .operate op => op.ending?
  | .finish ending => some ending
  | _ => none

/-- Whether an action leaves the wrapping of its client as it is. -/
def keepsWrapping : Action β → Bool
  | .wrap _ | .unwrap | .drop => false
  | _ => true

variable {a : Action β} {c : Client} {s : Session} {t : Transaction} {store : Store}
  {out : Outcome Client β}

/-- An action that keeps the wrapping makes an operation of the session, or does nothing.  An
    ending does nothing only if the session has no open transaction. -/
theorem run?_cases (hc : c.isTransactional = true) (hs : c.session? = some s)
    (hkeeps : a.keepsWrapping = true) (hrun : a.run? c store = some out) :
    (∃ (γ : Type) (op : Operation γ), a.ending? = op.ending? ∧
        out.store = (op.run s store).store ∧ out.state = c.withSession (op.run s store).state ∧
        (op.ending? ≠ none → out.result.isOk = (op.run s store).result.isOk)) ∨
      (out.store = store ∧ out.state = c ∧ (a.ending? ≠ none → ¬ s.isActive = true)) := by
  -- the actions that keep the wrapping, one by one
  cases a with
  | operate op =>
    obtain rfl := Option.some.inj ((Client.operate_eq hc hs op).symm.trans hrun)
    exact .inl ⟨_, op, rfl, rfl, rfl, fun _ => rfl⟩
  | access a =>
    obtain rfl := Client.access_eq hs hrun
    obtain ⟨hstore, hstate⟩ := a.on_eq s store
    refine .inl ⟨_, a.operation.2, a.ending?_operation.symm, hstore, ?_, fun h => ?_⟩
    · -- a DAO makes the one operation of its access
      exact congrArg c.withSession hstate
    · exact absurd a.ending?_operation h
  | finish ending =>
    obtain rfl := Option.some.inj ((Client.finish_eq hc hs ending).symm.trans hrun)
    by_cases hactive : s.isActive = true
    · rw [if_pos hactive]
      exact .inl ⟨_, .finish ending, rfl, rfl, rfl, fun _ => rfl⟩
    · rw [if_neg hactive]
      exact .inr ⟨rfl, rfl, fun _ => hactive⟩
  | isActive =>
    obtain ⟨b, -, rfl⟩ := Option.map_eq_some_iff.1 hrun
    exact .inr ⟨rfl, rfl, fun h => absurd rfl h⟩
  | inspect =>
    obtain ⟨seen, -, rfl⟩ := Option.map_eq_some_iff.1 hrun
    exact .inr ⟨rfl, rfl, fun h => absurd rfl h⟩
  | _ => cases hkeeps

/-- An open transaction stays open until it is ended, and is ended as the answer says. -/
theorem run_active (hc : c.isTransactional = true) (hs : c.session? = some ⟨some t⟩)
    (hkeeps : a.keepsWrapping = true) (hrun : a.run? c store = some out)
    (ht : t.status = .active) (hwithin : t.Within store) :
    (a.ending? = none ∧ ∃ t', t'.status = .active ∧ out.state = c.withSession ⟨some t'⟩) ∨
      ∃ ending, a.ending? = some ending ∧
        out.state = c.withSession ⟨some (t.finish (ending.fate out.result.isOk))⟩ := by
  rcases run?_cases hc hs hkeeps hrun with ⟨γ, op, hop, -, hstate, hok⟩ | ⟨-, hstate, hidle⟩
  · cases hending : op.ending? with
    | none =>
      -- the transaction moves on
      rw [(op.run_active hending ht hwithin).2] at hstate
      exact .inl ⟨hop.trans hending, _, (op.status_advance t store).trans ht, hstate⟩
    | some ending =>
      cases op with
      | finish ending' =>
        obtain rfl := Option.some.inj hending
        refine .inr ⟨ending', hop, ?_⟩
        rw [hok nofun, hstate]
        exact congrArg c.withSession (Session.state_finish ht ending' store)
      | _ => cases hending
  · -- the action has asked nothing of the session, so it was no ending of an open one
    have hactive : (Session.mk (some t)).isActive = true := Session.isActive_iff.2 ⟨t, rfl, ht⟩
    have hnone : a.ending? = none := Classical.not_not.1 fun h => hidle h hactive
    exact .inl ⟨hnone, t, ht, hstate.trans (Client.withSession_self hs).symm⟩

/-- Nothing that a client does with a finished transaction changes anything. -/
theorem run_finished (hc : c.isTransactional = true) (hs : c.session? = some ⟨some t⟩)
    (hkeeps : a.keepsWrapping = true) (hrun : a.run? c store = some out)
    (ht : t.status ≠ .active) : out.store = store ∧ out.state = c := by
  rcases run?_cases hc hs hkeeps hrun with ⟨γ, op, -, hstore, hstate, -⟩ | ⟨hstore, hstate, -⟩
  · obtain ⟨hstore', hstate', -⟩ := op.run_finished ht store
    rw [hstate'] at hstate
    exact ⟨hstore.trans hstore', hstate.trans (Client.withSession_self hs)⟩
  · exact ⟨hstore, hstate⟩

end Action

/-- An ending can be asked for whenever there is a transactional handle. -/
theorem Action.exists_run? {β : Type} {a : Action β} {c : Client} {s : Session} {ending : Ending}
    (hc : c.isTransactional = true) (hs : c.session? = some s) (h : a.ending? = some ending)
    (store : Store) : ∃ out, a.run? c store = some out := by
  cases a with
  | operate op => exact ⟨_, Client.operate_eq hc hs op⟩
  | finish ending => exact ⟨_, Client.finish_eq hc hs ending⟩
  | _ => cases h

/-! ## Calls -/

namespace Call

variable {β : Type}

/-- The ending that a call asks for, for the transaction of a client. -/
def ending? (n : Nat) : Call β → Option Ending
  | .act m a => if m = n then a.ending? else none
  | _ => none

/-- Whether a call leaves the wrapping of a client as it is. -/
def keepsWrapping (n : Nat) : Call β → Bool
  | .act m a => m != n || a.keepsWrapping
  | _ => true

/-- A call of somebody else does not end the transaction of a client. -/
theorem ending?_of_ne {c : Call β} {n : Nat} (h : c.actor? ≠ some n) : c.ending? n = none := by
  cases c with
  | act m a => exact if_neg fun hm => h (congrArg some hm)
  | _ => rfl

end Call

/-- A call is that of a client, or the client does not act in it. -/
theorem Request.actor_cases (r : Request) (n : Nat) :
    r.call.actor? ≠ some n ∨ ∃ (β : Type) (a : Action β), r = ⟨.act n a⟩ := by
  obtain ⟨call⟩ := r
  cases call with
  | act m a =>
    by_cases hm : m = n
    · exact .inr ⟨_, a, hm ▸ rfl⟩
    · exact .inl fun h => hm (Option.some.inj h)
  | _ => exact .inl nofun

namespace System

variable {w : System} {n : Nat} {t : Transaction}

/-- Whether a call is answered without an error. -/
def succeeds (w : System) (r : Request) : Bool := (w.call? r.call).any fun out => out.1.isOk

/-- What several calls make of an open transaction: the first one that ends it decides. -/
def fate (w : System) (n : Nat) : List Request → TransactionStatus
  | [] => .active
  | r :: rs =>
    match r.call.ending? n with
    | none => (w.step r).fate n rs
    | some ending => ending.fate (w.succeeds r)

/-- A client holds a transaction behind a transactional handle. -/
def Holds (w : System) (n : Nat) (t : Transaction) : Prop :=
  ∃ c, w.clients n = some c ∧ c.isTransactional = true ∧ c.session? = some ⟨some t⟩

/-- The calls of others leave a client alone. -/
theorem clients_step_of_ne {c : Client} (hc : w.clients n = some c) {r : Request}
    (hr : r.call.actor? ≠ some n) : (w.step r).clients n = some c := by
  obtain ⟨call⟩ := r
  cases call with
  | enter m origin =>
    cases hm : w.clients m with
    | none =>
      -- the number of the client is taken
      have hne : n ≠ m := fun h => by cases (h ▸ hc).symm.trans hm
      simp only [step, call?, hm, put, if_neg hne, hc]
    | some c' => simp only [step, call?, hm, hc]
  | act m a =>
    -- another client acts
    have hne : n ≠ m := fun h => hr (congrArg some h.symm)
    cases hm : w.clients m with
    | none => simp only [step, call?, hm, hc]
    | some c' =>
      cases hout : a.run? c' w.store with
      | none => simp only [step, call?, hm, hout, Option.map_none, hc]
      | some out => simp only [step, call?, hm, hout, Option.map_some, put, if_neg hne, hc]
  | _ => exact hc

/-- A call of a client, told by what its action makes of the client. -/
theorem call?_act {c : Client} (hc : w.clients n = some c) {β : Type} (a : Action β) :
    w.call? (.act n a) =
      (a.run? c w.store).map fun out => (out.result, w.put n out.state out.store) := by
  simp only [call?, hc]

/-- A client that is put back leaves the system as it was. -/
theorem put_self {c : Client} (hc : w.clients n = some c) : w.put n c w.store = w := by
  have hclients : (fun m => if m = n then some c else w.clients m) = w.clients := by
    funext m
    split
    · next h => rw [h, hc]
    · rfl
  rw [put, hclients]

/-- A client that is put in place is there. -/
theorem clients_put_self (w : System) (n : Nat) (c : Client) (store : Store) :
    (w.put n c store).clients n = some c :=
  if_pos rfl

namespace Holds

variable {r : Request} (h : w.Holds n t)

include h

/-- The session of the client that holds a transaction. -/
theorem session?_eq : w.session? n = some ⟨some t⟩ := by
  obtain ⟨c, hc, -, hs⟩ := h
  exact (System.session?_eq hc).trans hs

/-- A call leaves a transaction alone, or is an action of its client that is carried out. -/
theorem step_cases (hr : r.call.keepsWrapping n = true) :
    (r.call.ending? n = none ∧ (w.step r).Holds n t ∧ (r.call.actor? = some n → w.step r = w)) ∨
      ∃ (c : Client) (β : Type) (a : Action β) (out : Outcome Client β),
        w.clients n = some c ∧ c.isTransactional = true ∧ c.session? = some ⟨some t⟩ ∧
        a.keepsWrapping = true ∧ a.run? c w.store = some out ∧
        r.call.ending? n = a.ending? ∧ w.succeeds r = out.result.isOk ∧
        w.step r = w.put n out.state out.store := by
  obtain ⟨c, hc, htransactional, hs⟩ := h
  rcases r.actor_cases n with hother | ⟨β, a, rfl⟩
  · exact .inl ⟨Call.ending?_of_ne hother,
      ⟨c, clients_step_of_ne hc hother, htransactional, hs⟩, fun hactor => absurd hactor hother⟩
  have hcall := call?_act hc a
  have hending : (Call.act n a).ending? n = a.ending? := if_pos rfl
  have hkeeps : a.keepsWrapping = true := by simpa [Call.keepsWrapping] using hr
  cases hout : a.run? c w.store with
  | none =>
    -- the wrapping does not have the operation, and so it is none that ends the transaction
    rw [hout] at hcall
    have hstep : w.step ⟨.act n a⟩ = w := step_of_none hcall
    refine .inl ⟨?_, hstep.symm ▸ ⟨c, hc, htransactional, hs⟩, fun _ => hstep⟩
    rw [hending]
    refine Option.eq_none_iff_forall_ne_some.2 fun ending h => ?_
    obtain ⟨out, hsome⟩ := Action.exists_run? htransactional hs h w.store
    cases hsome.symm.trans hout
  | some out =>
    rw [hout] at hcall
    refine .inr ⟨c, β, a, out, hc, htransactional, hs, hkeeps, hout, hending, ?_, ?_⟩
    · rw [succeeds, hcall]
      rfl
    · -- the action leaves its own client and the store
      exact step_of_some (r := ⟨.act n a⟩) hcall

/-- What one call makes of an open transaction. -/
theorem step_active (hwithin : w.Within) (ht : t.status = .active)
    (hr : r.call.keepsWrapping n = true) :
    (r.call.ending? n = none ∧ ∃ t', t'.status = .active ∧ (w.step r).Holds n t') ∨
      ∃ ending, r.call.ending? n = some ending ∧
        (w.step r).Holds n (t.finish (ending.fate (w.succeeds r))) := by
  have hw : t.Within w.store := hwithin n _ h.session?_eq t rfl
  rcases h.step_cases hr with
    ⟨hnone, hholds, -⟩ | ⟨c, β, a, out, -, hc, hs, hkeeps, hout, hending, hsucceeds, hstep⟩
  · exact .inl ⟨hnone, t, ht, hholds⟩
  -- whatever the action leaves, the client holds it in the same wrapping
  have hholds (t' : Transaction) :
      (w.put n (c.withSession ⟨some t'⟩) out.store).Holds n t' :=
    ⟨_, clients_put_self w n _ _, Client.isTransactional_withSession hc _,
      Client.session?_withSession hc _⟩
  rw [hending, hsucceeds, hstep]
  rcases Action.run_active hc hs hkeeps hout ht hw with
    ⟨hnone, t', ht', hstate⟩ | ⟨ending, hsome, hstate⟩
  · -- the transaction is still open, or finished as its ending asked for
    rw [hstate]
    exact .inl ⟨hnone, t', ht', hholds t'⟩
  · rw [hstate]
    exact .inr ⟨ending, hsome, hholds _⟩

/-- A call of a client whose transaction has finished changes nothing. -/
theorem step_eq_of_finished (ht : t.status ≠ .active) (hr : r.call.keepsWrapping n = true)
    (hactor : r.call.actor? = some n) : w.step r = w := by
  rcases h.step_cases hr with
    ⟨-, -, heq⟩ | ⟨c, β, a, out, hclient, hc, hs, hkeeps, hout, -, -, hstep⟩
  · exact heq hactor
  · obtain ⟨hstore, hstate⟩ := Action.run_finished hc hs hkeeps hout ht
    rw [hstep, hstore, hstate, put_self hclient]

/-- A transaction that has finished stays as it is. -/
theorem step_finished (ht : t.status ≠ .active) (hr : r.call.keepsWrapping n = true) :
    (w.step r).Holds n t := by
  by_cases hactor : r.call.actor? = some n
  · rw [h.step_eq_of_finished ht hr hactor]
    exact h
  · obtain ⟨c, hc, htransactional, hs⟩ := h
    exact ⟨c, clients_step_of_ne hc hactor, htransactional, hs⟩

/-- A transaction that has finished stays as it is through a run. -/
theorem run_finished (ht : t.status ≠ .active) {rs : List Request}
    (hrs : ∀ r ∈ rs, r.call.keepsWrapping n = true) : (w.run rs).Holds n t := by
  induction rs generalizing w with
  | nil => exact h
  | cons r rs ih =>
    exact ih (h.step_finished ht (hrs r List.mem_cons_self))
      fun r' hr' => hrs r' (List.mem_cons_of_mem r hr')

/-- A run makes of an open transaction what its first ending makes of it. -/
theorem run_active (hwithin : w.Within) (ht : t.status = .active) {rs : List Request}
    (hrs : ∀ r ∈ rs, r.call.keepsWrapping n = true) :
    ∃ t', (w.run rs).Holds n t' ∧ t'.status = w.fate n rs := by
  -- along the calls, up to the first one that ends the transaction
  induction rs generalizing w t with
  | nil => exact ⟨t, h, ht⟩
  | cons r rs ih =>
    have hr := hrs r List.mem_cons_self
    have hrs' : ∀ r' ∈ rs, r'.call.keepsWrapping n = true :=
      fun r' hr' => hrs r' (List.mem_cons_of_mem r hr')
    rcases h.step_active hwithin ht hr with ⟨hnone, t', ht', hstep⟩ | ⟨ending, hsome, hstep⟩
    · -- the transaction is still open, and the other calls decide
      obtain ⟨t'', hrun, hstatus⟩ := ih hstep (within_step hwithin r) ht' hrs'
      refine ⟨t'', hrun, hstatus.trans ?_⟩
      simp only [fate, hnone]
    · -- the call has decided
      refine ⟨_, hstep.run_finished (ending.fate_ne_active _) hrs', ?_⟩
      simp only [fate, hsome]
      rfl

end Holds

/-- What a transaction is that has finished: nothing is held back or remembered any more, the
    handle has nothing to do, the session refuses to end it again, and whatever else its client
    does changes nothing. -/
structure Settled (w : System) (n : Nat) (t : Transaction) : Prop where
  holds : w.Holds n t
  reads_eq : t.reads = ∅
  writes_eq : t.writes = ∅
  handle_ok : ∀ ending, w.call? (.act n (.finish ending)) = some (.ok (), w)
  session_refuses : ∀ ending,
    w.call? (.act n (.operate (.finish ending))) = some (.error .transactionNotActive, w)
  step_eq : ∀ r : Request, r.call.keepsWrapping n = true → r.call.actor? = some n → w.step r = w

/-- A finished transaction that is left with nothing is settled for good. -/
theorem Holds.settled (h : w.Holds n t) (ht : t.status ≠ .active)
    (hclean : t.reads = ∅ ∧ t.writes = ∅) : w.Settled n t where
  holds := h
  reads_eq := hclean.1
  writes_eq := hclean.2
  handle_ok ending := by
    obtain ⟨c, hc, htransactional, hs⟩ := h
    rw [call?_act hc, Action.run?, Client.finish_eq htransactional hs,
      if_neg (Session.not_isActive ht)]
    simp only [Option.map_some, put_self hc]
  session_refuses ending := by
    obtain ⟨c, hc, htransactional, hs⟩ := h
    rw [call?_act hc, Action.run?, Client.operate_eq htransactional hs, Operation.run,
      Session.finish_of_finished ht]
    simp only [Outcome.mapState, Option.map_some, Client.withSession_self hs, put_self hc]
  -- and no request that keeps the wrapping changes anything
  step_eq r hr hactor := h.step_eq_of_finished ht hr hactor

/-- The life of a transaction behind a transactional handle.  Whatever its client and all
    others do, it is open until its client asks for an ending, of the handle or of the session;
    it is committed if this is a commit that succeeds, and rolled back if not, and so it stays.
    A handle that is not transactional ends nothing, and makes no transaction. -/
theorem life_cycle {rs rs' : List Request} (h : (init.run rs).Holds n t)
    (hrs' : ∀ r ∈ rs', r.call.keepsWrapping n = true) :
    (∃ t', (init.run (rs ++ rs')).Holds n t' ∧
      t'.status = (if t.status = .active then (init.run rs).fate n rs' else t.status) ∧
      (t'.status ≠ .active → ∀ rs'' : List Request,
        (∀ r ∈ rs'', r.call.keepsWrapping n = true) →
        (init.run (rs ++ rs' ++ rs'')).Settled n t')) ∧
    ∀ h : Handle, h.transactional = false →
      (∀ (ending : Ending) (store : Store), ∃ reason,
        h.finish ending store = ⟨.error (.transactionState reason), store, h⟩) ∧
      ∃ reason, TransactionalHandle.ofHandle h = .error (.transactionState reason) := by
  -- a transaction that has finished is settled, and stays so
  have hsettled {t' : Transaction} (h' : (init.run (rs ++ rs')).Holds n t')
      (ht' : t'.status ≠ .active) (rs'' : List Request)
      (hrs'' : ∀ r ∈ rs'', r.call.keepsWrapping n = true) :
      (init.run (rs ++ rs' ++ rs'')).Settled n t' := by
    have hrun := h'.run_finished ht' hrs''
    rw [← run_append] at hrun
    exact hrun.settled ht' (clean_run hrun.session?_eq t' rfl ht')
  refine ⟨?_, fun h' hplain => ⟨fun ending store => ?_, ?_⟩⟩
  · by_cases ht : t.status = .active
    · obtain ⟨t', hrun, hstatus⟩ := h.run_active (within_run within_init rs) ht hrs'
      rw [← run_append] at hrun
      exact ⟨t', hrun, hstatus.trans (if_pos ht).symm, hsettled hrun⟩
    · have hrun := h.run_finished ht hrs'
      rw [← run_append] at hrun
      exact ⟨t, hrun, (if_neg ht).symm, hsettled hrun⟩
  · -- a plain handle is refused by its flag alone
    have hfalse : ¬ h'.transactional = true := by simp [hplain]
    exact ⟨_, if_neg hfalse⟩
  · have hfalse : ¬ h'.transactional = true := by simp [hplain]
    exact ⟨_, dif_neg hfalse⟩

/-- A client begins a transaction and takes a handle. -/
def opened : List Request := [⟨.enter 0 .begun⟩, ⟨.act 0 (.wrap (.handle true))⟩]

/-- A note that the transaction has loaded is replaced, and so its commit is refused; the
    transaction is ended twice more, in both ways and on both layers. -/
def ended : List Request :=
  [⟨.store (.register Note.type.kind)⟩, ⟨.access (.put ⟨Note.type, {}⟩ (Note.of "a" "one"))⟩,
    ⟨.act 0 (.operate (.load Note.type "a"))⟩,
    ⟨.act 0 (.operate (.save Note.type (Note.of "b" "two")))⟩,
    ⟨.access (.put ⟨Note.type, {}⟩ (Note.of "a" "three"))⟩, ⟨.act 0 (.finish .commit)⟩,
    ⟨.act 0 (.operate (.finish .rollback))⟩, ⟨.act 0 (.finish .commit)⟩]

/-- The commit conflicts, and the endings behind it change nothing. -/
theorem life_cycle_ended :
    (init.run opened).Holds 0 { id := 1 } ∧
      ∃ t, (init.run (opened ++ ended)).Settled 0 t ∧ t.status = .rolledBack ∧
        (init.run (opened ++ ended)).store.version = 2 := by
  have hopened : (init.run opened).Holds 0 { id := 1 } := ⟨_, rfl, rfl, rfl⟩
  have hkeeps : ∀ r ∈ ended, r.call.keepsWrapping 0 = true := by decide
  obtain ⟨⟨t, -, hstatus, hsettled⟩, -⟩ := life_cycle hopened hkeeps
  have hfate : t.status = .rolledBack := hstatus.trans (by decide +kernel)
  refine ⟨hopened, t, ?_, hfate, by decide +kernel⟩
  have hrest := hsettled (by rw [hfate]; decide) [] nofun
  rwa [List.append_nil] at hrest

end System

end EntityStore
