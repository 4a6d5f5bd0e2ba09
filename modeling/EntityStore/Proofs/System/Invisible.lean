import EntityStore.Proofs.System.Orders

/-! # Uncommitted work is invisible

A transaction shows nothing of itself to others unless it is committed.  Whatever its client
does, the store stays as it is, whether the transaction is left open, rolled back, refused at
its commit or given up.  So the others find the same system with and without its calls, and
two runs in which it did different things are the same to them.  The orders in which
transactions check what they have read may differ as well; all that they can show in is which
record a conflict names.

* `System.NeverCommitted`      a client whose transaction is committed in no state of a run
* `System.Alike`               systems that differ in one client at most
* `System.alike_act`           a call of an uncommitted client leaves the system alike
* `System.call_congr`          all other calls find alike systems the same
* `System.run_without`         a run is to the others what it is without the calls of the client
* `System.uncommitted_unseen`  two runs that differ in the data calls of one transaction -/

namespace EntityStore

/-- The store is left alone by every operation of a transaction that has not been committed
    behind it. -/
theorem Operation.store_eq_of_uncommitted {β : Type} (op : Operation β) {t : Transaction}
    {store : Store} (hwithin : t.Within store)
    (hafter : ∀ t', (op.run ⟨some t⟩ store).state = ⟨some t'⟩ → t'.status ≠ .committed) :
    (op.run ⟨some t⟩ store).store = store := by
  by_cases ht : t.status = .active
  case neg => exact (op.run_finished ht store).1
  -- an open transaction writes when it ends, if at all
  cases hending : op.ending? with
  | none => exact (op.run_active hending ht hwithin).1
  | some ending =>
    cases op with
    | finish ending =>
      cases ending with
      | rollback =>
        rw [run, Session.finish, Session.rollback_of_active ht]
      | commit =>
        rw [run, Session.finish] at hafter ⊢
        rcases Session.commit_cases ht hwithin with ⟨reason, h⟩ | ⟨h, -⟩
        · rw [h]
        · -- the commit was accepted, which has been ruled out
          rw [h] at hafter
          exact absurd rfl (hafter _ rfl)
    | _ => cases hending

/-- A session is in a transaction that is not committed. -/
def Session.Uncommitted (s : Session) : Prop :=
  s.status = some .active ∨ s.status = some .rolledBack

instance (s : Session) : Decidable s.Uncommitted := inferInstanceAs (Decidable (_ ∨ _))

/-- An uncommitted session is in a transaction that has not been committed. -/
theorem Session.Uncommitted.exists {s : Session} (h : s.Uncommitted) :
    ∃ t, s = ⟨some t⟩ ∧ t.status ≠ .committed := by
  obtain ⟨transaction⟩ := s
  cases transaction with
  | none => simp [Session.Uncommitted, Session.status] at h
  | some t =>
    refine ⟨t, rfl, fun hcommitted => ?_⟩
    simp [Session.Uncommitted, Session.status, hcommitted] at h

/-- A move between uncommitted states of a session leaves the store alone. -/
theorem Moves.store_eq {store store' : Store} {s s' : Option Session}
    (h : Moves store s store' s') (hwithin : ∀ s₀, s = some s₀ → s₀.Within store)
    (hbefore : ∀ s₀, s = some s₀ → s₀.Uncommitted)
    (hafter : ∀ s₁, s' = some s₁ → s₁.Uncommitted) : store' = store := by
  cases h with
  | stays => rfl
  | operates op s₀ =>
    -- the session is in a transaction that has not committed, before the operation and after
    obtain ⟨t, rfl, -⟩ := (hbefore s₀ rfl).exists
    obtain ⟨t', ht', hstatus⟩ := (hafter _ rfl).exists
    refine op.store_eq_of_uncommitted (hwithin _ rfl t rfl) fun t₁ ht₁ => ?_
    obtain ⟨rfl⟩ := ht'.symm.trans ht₁
    exact hstatus

namespace System

variable {w v : System} {n : Nat}

/-- The transaction of a client, if it has a session, is not committed. -/
def Uncommitted (w : System) (n : Nat) : Prop := ∀ s ∈ w.session? n, s.Uncommitted

instance (w : System) (n : Nat) : Decidable (w.Uncommitted n) :=
  inferInstanceAs (Decidable (∀ s ∈ w.session? n, s.Uncommitted))

/-- In no state of a run is the transaction of a client committed. -/
def NeverCommitted (w : System) (n : Nat) : List Request → Prop
  | [] => w.Uncommitted n
  | r :: rs => w.Uncommitted n ∧ (w.step r).NeverCommitted n rs

instance decidableNeverCommitted (w : System) (n : Nat) :
    (rs : List Request) → Decidable (w.NeverCommitted n rs)
  | [] => inferInstanceAs (Decidable (w.Uncommitted n))
  | r :: rs =>
    have := decidableNeverCommitted (w.step r) n rs
    inferInstanceAs (Decidable (w.Uncommitted n ∧ (w.step r).NeverCommitted n rs))

/-- Two systems that differ in one client at most, which is there in both or in neither. -/
structure Alike (n : Nat) (w v : System) : Prop where
  store_eq : w.store = v.store
  registries_eq : w.registries = v.registries
  clients_eq : ∀ m, m ≠ n → w.clients m = v.clients m
  taken_eq : (w.clients n).isSome = (v.clients n).isSome

namespace Alike

/-- A system differs from itself in no client. -/
protected theorem refl (n : Nat) (w : System) : w.Alike n w := ⟨rfl, rfl, fun _ _ => rfl, rfl⟩

/-- Systems that differ from a third one in one client differ in that client. -/
protected theorem trans {u : System} (h : Alike n w v) (h' : Alike n v u) : Alike n w u :=
  ⟨h.store_eq.trans h'.store_eq, h.registries_eq.trans h'.registries_eq,
    fun m hm => (h.clients_eq m hm).trans (h'.clients_eq m hm), h.taken_eq.trans h'.taken_eq⟩

/-- The same client is put in place in both. -/
theorem put (h : Alike n w v) (m : Nat) (c : Client) (store : Store) :
    Alike n (w.put m c store) (v.put m c store) where
  store_eq := rfl
  registries_eq := h.registries_eq
  clients_eq k hk := by
    simp only [System.put, h.clients_eq k hk]
  taken_eq := by
    simp only [System.put]
    split
    · rfl
    · exact h.taken_eq

/-- The one client is moved on, and leaves the store as it is. -/
theorem put_self {c : Client} (hc : w.clients n = some c) (c' : Client) :
    Alike n (w.put n c' w.store) w where
  store_eq := rfl
  registries_eq := rfl
  clients_eq m hm := if_neg hm
  taken_eq := by simp only [System.put, hc, if_true, Option.isSome_some]

end Alike

/-- What is never committed in a run is not committed in front of it. -/
theorem NeverCommitted.uncommitted {rs : List Request} (h : w.NeverCommitted n rs) :
    w.Uncommitted n := by
  cases rs with
  | nil => exact h
  | cons r rs => exact h.1

/-! ## One call -/

/-- The calls of an uncommitted client leave the system alike. -/
theorem alike_act (hw : w.Within) {β : Type} {a : Action β}
    (hbefore : w.Uncommitted n) (hafter : (w.step ⟨.act n a⟩).Uncommitted n) :
    Alike n (w.step ⟨.act n a⟩) w := by
  cases hcall : w.call? (.act n a) with
  | none =>
    -- an action that the client does not have does nothing
    rw [step_of_none hcall]
    exact .refl n w
  | some out =>
    rw [step_of_some hcall] at hafter ⊢
    simp only [call?] at hcall
    split at hcall
    · cases hcall
    · next c hc =>
      -- the action moves the session of the client at most, and that writes nothing
      obtain ⟨moved, hmoved, rfl⟩ := Option.map_eq_some_iff.1 hcall
      have hwithin := hw n
      rw [Uncommitted, session?_eq hc] at hbefore
      rw [Uncommitted, session?_put, if_pos rfl] at hafter
      rw [session?_eq hc] at hwithin
      rw [(a.moves hmoved).store_eq hwithin hbefore hafter]
      exact .put_self hc _

/-- All other calls find alike systems the same, and leave alike systems. -/
theorem call_congr (h : Alike n w v) {β : Type} {c : Call β} (hc : c.actor? ≠ some n) :
    (w.call? c = none ∧ v.call? c = none) ∨
      ∃ answer w' v', w.call? c = some (answer, w') ∧ v.call? c = some (answer, v') ∧
        Alike n w' v' := by
  cases c with
  | store c =>
    rw [call?, call?, h.store_eq]
    exact .inr ⟨_, _, _, rfl, rfl, rfl, h.registries_eq, h.clients_eq, h.taken_eq⟩
  | registry m c =>
    rw [call?, call?, h.store_eq, h.registries_eq]
    refine .inr ⟨_, _, _, rfl, rfl, rfl, ?_, h.clients_eq, h.taken_eq⟩
    simp only [putRegistry, h.registries_eq]
  | access a =>
    rw [call?, call?, h.store_eq]
    exact .inr ⟨_, _, _, rfl, rfl, rfl, h.registries_eq, h.clients_eq, h.taken_eq⟩
  | findAll c =>
    rw [call?, call?, h.store_eq]
    exact .inr ⟨_, _, _, rfl, rfl, rfl, h.registries_eq, h.clients_eq, h.taken_eq⟩
  | enter m origin =>
    -- the number is free in both systems, or in neither
    have htaken : (w.clients m).isSome = (v.clients m).isSome := by
      by_cases hm : m = n
      · rw [hm, h.taken_eq]
      · rw [h.clients_eq m hm]
    simp only [call?, h.store_eq]
    cases hw : w.clients m with
    | none =>
      rw [hw, Option.isSome_none] at htaken
      rw [Option.isNone_iff_eq_none.1 (Option.isSome_eq_false_iff.1 htaken.symm)]
      exact .inr ⟨_, _, _, rfl, rfl, h.put m _ _⟩
    | some c =>
      rw [hw, Option.isSome_some] at htaken
      obtain ⟨c', hc'⟩ := Option.isSome_iff_exists.1 htaken.symm
      rw [hc']
      exact .inl ⟨rfl, rfl⟩
  | act m a =>
    -- another client is the same in both systems, and so is what it does
    have hm : m ≠ n := fun hm => hc (congrArg some hm)
    simp only [call?, h.clients_eq m hm, h.store_eq]
    cases v.clients m with
    | none => exact .inl ⟨rfl, rfl⟩
    | some c =>
      dsimp only
      cases a.run? c v.store with
      | none => exact .inl ⟨rfl, rfl⟩
      | some out => exact .inr ⟨_, _, _, rfl, rfl, h.put m _ _⟩

/-- A call of somebody else is answered the same in alike systems, and leads to alike ones. -/
theorem step_congr (h : Alike n w v) {r : Request} (hr : r.call.actor? ≠ some n) :
    w.reply? r = v.reply? r ∧ Alike n (w.step r) (v.step r) := by
  rcases call_congr h hr with ⟨hw, hv⟩ | ⟨answer, w', v', hw, hv, halike⟩
  · rw [reply?, reply?, step_of_none hw, step_of_none hv, hw, hv]
    exact ⟨rfl, h⟩
  · rw [reply?, reply?, step_of_some hw, step_of_some hv, hw, hv]
    exact ⟨rfl, halike⟩

/-! ## Many calls -/

/-- A client that looks data up or changes it acts. -/
private theorem filter_actor (n : Nat) (rs : List Request) :
    (rs.filter fun r => r.call.dataOf? ≠ some n).filter (fun r => r.call.actor? ≠ some n) =
      rs.filter fun r => r.call.actor? ≠ some n := by
  rw [List.filter_filter]
  congr 1
  funext r
  by_cases hdata : r.call.dataOf? = some n
  · simp [hdata, Call.actor?_of_dataOf? hdata]
  · simp [hdata]

/-- A run in which a client remains uncommitted is to all others the run without the calls in
    which the client acts. -/
theorem run_without (hw : w.Within) (h : Alike n w v) {rs : List Request}
    (hnever : w.NeverCommitted n rs) :
    (w.trace rs).filter (fun e => e.call.client? ≠ some n) =
        (v.trace (rs.filter fun r => r.call.actor? ≠ some n)).filter
          (fun e => e.call.client? ≠ some n) ∧
      Alike n (w.run rs) (v.run (rs.filter fun r => r.call.actor? ≠ some n)) := by
  -- along the calls; the two systems stay alike whether the client acts or somebody else does
  induction rs generalizing w v with
  | nil => exact ⟨rfl, h⟩
  | cons r rs ih =>
    have hwithin := within_step hw r
    by_cases hr : r.call.actor? = some n
    · -- the client acts, and nobody else notices
      obtain ⟨call⟩ := r
      cases call with
      | act m a =>
        obtain rfl := Option.some.inj hr
        have hstep := alike_act hw hnever.uncommitted hnever.2.uncommitted
        obtain ⟨htrace, hrun⟩ := ih hwithin (hstep.trans h) hnever.2
        have hreply : (w.reply? ⟨.act m a⟩).toList.filter
            (fun e => e.call.client? ≠ some m) = [] := by
          rw [reply?]
          cases w.call? (.act m a) <;> simp [Call.client?]
        rw [List.filter_cons_of_neg (by simp [Call.actor?]), trace, List.filter_append, hreply]
        exact ⟨htrace, hrun⟩
      | _ => cases hr
    · obtain ⟨hreply, hstep⟩ := step_congr h hr
      obtain ⟨htrace, hrun⟩ := ih hwithin hstep hnever.2
      -- somebody else makes the call in both runs
      rw [List.filter_cons_of_pos (by simpa using hr)]
      refine ⟨?_, hrun⟩
      rw [trace, trace, List.filter_append, List.filter_append, htrace, hreply]

/-- What is left of a run without the calls of a client, when orders are left aside. -/
private theorem map_withOrder_filter_actor (n : Nat) (rs : List Request) :
    (rs.filter fun r => r.call.actor? ≠ some n).map (Request.withOrder .ascending) =
      ((rs.filter fun r => r.call.dataOf? ≠ some n).map (Request.withOrder .ascending)).filter
        fun r => r.call.actor? ≠ some n := by
  have hactor : ((fun r : Request => decide (r.call.actor? ≠ some n)) ∘
      Request.withOrder .ascending) = fun r => decide (r.call.actor? ≠ some n) := by
    funext r
    simp only [Function.comp_apply, Request.withOrder, Call.actor?_withOrder]
  rw [List.filter_map, hactor, filter_actor]

/-- Uncommitted work is invisible.  Say that two runs are the same up to the calls by which one
    client looks data up or changes it, and that the transaction of this client is committed in
    neither of them.  Then all others are given the same answers, and the runs end with the
    same store.

    The transactions of the two runs may check what they have read in different orders.  A
    conflict may then name another record; where the orders are the same as well, whole replies
    are. -/
theorem uncommitted_unseen {as bs : List Request}
    (hsame : (as.filter fun r => r.call.dataOf? ≠ some n).map (Request.withOrder .ascending) =
      (bs.filter fun r => r.call.dataOf? ≠ some n).map (Request.withOrder .ascending))
    (has : init.NeverCommitted n as) (hbs : init.NeverCommitted n bs) :
    List.Forall₂ Reply.Matches
        ((init.trace as).filter fun e => e.call.client? ≠ some n)
        ((init.trace bs).filter fun e => e.call.client? ≠ some n) ∧
      (init.run as).store = (init.run bs).store ∧
      (as.filter (fun r => r.call.dataOf? ≠ some n) =
          bs.filter (fun r => r.call.dataOf? ≠ some n) →
        (init.trace as).filter (fun e => e.call.client? ≠ some n) =
          (init.trace bs).filter (fun e => e.call.client? ≠ some n)) := by
  obtain ⟨hatrace, harun⟩ := run_without within_init (.refl n init) has
  obtain ⟨hbtrace, hbrun⟩ := run_without within_init (.refl n init) hbs
  -- without any calls of the client the two runs are one, up to orders
  have hrest : (as.filter fun r => r.call.actor? ≠ some n).map (Request.withOrder .ascending) =
      (bs.filter fun r => r.call.actor? ≠ some n).map (Request.withOrder .ascending) := by
    rw [map_withOrder_filter_actor, hsame, map_withOrder_filter_actor]
  obtain ⟨hmatches, hsystem⟩ := trace_matches within_init hrest
  have hstore := congrArg System.store hsystem
  rw [store_withOrder, store_withOrder] at hstore
  refine ⟨?_, ?_, fun heq => ?_⟩
  · rw [hatrace, hbtrace]
    refine List.rel_filter (fun e e' he => ?_) hmatches
    simp only [he.client?_eq]
  · rw [harun.store_eq, hbrun.store_eq, hstore]
  · -- with the same orders, they are one to the letter
    have hone : as.filter (fun r => r.call.actor? ≠ some n) =
        bs.filter (fun r => r.call.actor? ≠ some n) := by
      rw [← filter_actor n as, heq, filter_actor n bs]
    rw [hatrace, hbtrace, hone]

/-- The first client begins a transaction, and gives it up in the end.  In between, the third
    one looks up two notes in a transaction, the second one saves both, and the commit of the
    third one is refused.  Some calls of the first client come before all that, and the last
    calls are made to the store and to a collection. -/
def around (order : CheckOrder) (calls : List Request) : List Request :=
  [⟨.store (.register Note.type.kind)⟩, ⟨.enter 0 .begun⟩, ⟨.act 0 (.wrap (.handle true))⟩,
    ⟨.act 0 (.wrap .transaction)⟩, ⟨.enter 1 .plain⟩, ⟨.enter 2 (.begun order)⟩] ++ calls ++
  [⟨.act 2 (.operate (.load Note.type "a"))⟩, ⟨.act 2 (.operate (.load Note.type "b"))⟩,
    ⟨.act 1 (.operate (.save Note.type (Note.of "a" "one")))⟩,
    ⟨.act 1 (.operate (.save Note.type (Note.of "b" "two")))⟩,
    ⟨.act 2 (.operate (.finish .commit))⟩, ⟨.act 0 .drop⟩, ⟨.store .version⟩,
    ⟨.access (.get ⟨Note.type, {}⟩ "a")⟩]

/-- The first client replaces and deletes notes, and lists them. -/
def drafts : List Request :=
  [⟨.act 0 (.operate (.save Note.type (Note.of "a" "draft")))⟩,
    ⟨.act 0 (.operate (.delete Note.type "b"))⟩, ⟨.act 0 (.operate (.query Note.type none))⟩]

/-- The refusal names one note in the first run, and the other one in the second run. -/
theorem uncommitted_unseen_drafts :
    List.Forall₂ Reply.Matches
        ((init.trace (around .descending drafts)).filter fun e => e.call.client? ≠ some 0)
        ((init.trace (around .ascending [])).filter fun e => e.call.client? ≠ some 0) ∧
      (init.run (around .descending drafts)).store.version = 2 := by
  have hsame : ((around .descending drafts).filter fun r => r.call.dataOf? ≠ some 0).map
        (Request.withOrder .ascending) =
      ((around .ascending []).filter fun r => r.call.dataOf? ≠ some 0).map
        (Request.withOrder .ascending) := rfl
  -- the client that writes drafts never commits them
  have hdrafts : init.NeverCommitted 0 (around .descending drafts) := by decide +kernel
  have hnone : init.NeverCommitted 0 (around .ascending []) := by decide +kernel
  have hversion : (init.run (around .ascending [])).store.version = 2 := by decide +kernel
  obtain ⟨hmatches, hstore, -⟩ := uncommitted_unseen hsame hdrafts hnone
  exact ⟨hmatches, by rw [hstore, hversion]⟩

end System

end EntityStore
