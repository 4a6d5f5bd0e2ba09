import EntityStore.Proofs.Session.Replay

/-! # Updates that are not lost

Transactions that load an entity, save what a function makes of it, and commit, add up: a
record that only they write has gone through the function once for every commit that
succeeded, in whatever order their operations were interleaved.

* `World.Updates`           the transaction of a session is such an update
* `World.record?_updates`   the record behind a run with such updates -/

namespace EntityStore

/-- The record that an operation of a step asks to write. -/
def Step.change? : Step → Option RecordKey
  | .act _ op => op.change?.map Prod.fst
  | _ => none

namespace World

variable {α : Type} {w : World} {n : Nat}

/-- Session `n` has one transaction, which loads an entity, saves what `f` makes of it, and
    asks for a commit. -/
def Updates (w : World) (type : EntityType α) (id : String) (f : α → α) (n : Nat)
    (steps : List Step) : Prop :=
  ∃ order row answer, w.eventsOf n steps =
    [.begun n order, .answered n (.load type id) (.ok (some row)),
      .answered n (.save type (f row.entity)) (.ok ()), .answered n (.finish .commit) answer]

/-- The events of a session in two runs follow one another. -/
theorem eventsOf_append (w : World) (n : Nat) (a b : List Step) :
    w.eventsOf n (a ++ b) = w.eventsOf n a ++ (w.run a).eventsOf n b := by
  rw [eventsOf, trace_append, List.filter_append, eventsOf, eventsOf]

/-- The events of a session start with that of the first step, if it is one of them. -/
theorem eventsOf_cons (w : World) (n : Nat) (step : Step) (steps : List Step) :
    w.eventsOf n (step :: steps) =
      ((w.event? step).toList.filter fun e => e.session == n) ++
        (w.step step).eventsOf n steps := by
  rw [eventsOf, trace, List.filter_append, eventsOf]

/-- A write that is held back was asked for. -/
theorem change_of_pending (hw : w.Within) (hfree : w.sessions n = none) {steps : List Step}
    {t : Transaction} (hopen : (w.run steps).open? n = some t) {key : RecordKey}
    (hpending : t.writes[key]? ≠ none) :
    ∃ step ∈ steps, step.session? = some n ∧ step.change? = some key := by
  -- along the steps from the last one back, to the one that asked for the write
  induction steps using List.reverseRecOn generalizing t with
  | nil => exact absurd hfree (ne_none_of_open? hopen)
  | append_singleton steps last ih =>
    rw [run_concat] at hopen
    rcases open?_step (within_run hw steps) hopen with
      ⟨rfl, -, -, hwrites⟩ | ⟨hsame, -⟩ | ⟨t₀, β, op, ht₀, rfl, -, rfl⟩
    · -- the transaction begins with nothing held back
      rw [hwrites, Std.ExtTreeMap.getElem?_empty] at hpending
      exact absurd rfl hpending
    · obtain ⟨step, hmem, hstep⟩ := ih hsame hpending
      exact ⟨step, List.mem_append_left _ hmem, hstep⟩
    · by_cases hearlier : t₀.writes[key]? = none
      · -- it was not held back before, so this operation has asked for it
        refine ⟨.act n op, by simp, rfl, ?_⟩
        rw [op.getElem?_writes_advance] at hpending
        split at hpending
        · next key' body hchange =>
          split at hpending
          · next h => rw [Step.change?, hchange, ← h.1]; rfl
          · exact absurd hearlier hpending
        · exact absurd hearlier hpending
      · obtain ⟨step, hmem, hstep⟩ := ih ht₀ hearlier
        exact ⟨step, List.mem_append_left _ hmem, hstep⟩

/-- A load that finds an entity has read it from the store, if no write is held back. -/
private theorem record_of_load {store : Store} {type : EntityType α} {id : String} {row : Row α}
    {t : Transaction} (ht : t.status = .active) (hwrites : t.writes = ∅)
    (h : ((Session.mk (some t)).load store type id).result = .ok (some row)) :
    ∃ r, store.record? ⟨type.kindName, id⟩ = some r ∧ type.decode r.body = .ok row.entity := by
  rw [Session.load_active ht, hwrites, Std.ExtTreeMap.getElem?_empty] at h
  -- the kind is registered and the record there, as the load would find nothing otherwise
  cases hreg : store.isRegistered type.kindName with
  | false =>
    rw [hreg] at h
    cases h
  | true =>
    cases hr : store.record? ⟨type.kindName, id⟩ with
    | none =>
      rw [hreg, hr] at h
      cases h
    | some r =>
      rw [hreg, hr, if_pos rfl, Session.decodeFound, EntityType.decodeRow] at h
      -- a record that is no entity would be an error of the load
      cases hdecode : type.decode r.body with
      | error cause =>
        rw [hdecode] at h
        cases h
      | ok entity =>
        rw [hdecode] at h
        cases h
        exact ⟨r, rfl, hdecode⟩

/-- A save that succeeds holds the body of the entity back. -/
private theorem writes_of_save {store : Store} {type : EntityType α} {entity : α}
    {t : Transaction} (ht : t.status = .active)
    (h : ((Session.mk (some t)).save store type entity).result = .ok ()) :
    ∃ body, type.encode entity = .ok body ∧ (Session.mk (some t)).save store type entity =
      ⟨.ok (), store, ⟨some (t.buffer ⟨type.kindName, type.id entity⟩ (some body))⟩⟩ := by
  rw [Session.save_active ht] at h ⊢
  cases hencode : type.encode entity with
  | error cause =>
    rw [hencode] at h
    cases h
  | ok body =>
    cases hreg : store.isRegistered type.kindName with
    -- a kind that is not registered would be an error of the save
    | false =>
      rw [hencode, hreg] at h
      cases h
    | true => exact ⟨body, rfl, rfl⟩

/-- An update carried out alone: it loads the record of the store, and holds back the body of
    what the function makes of it. -/
private theorem update_alone {store : Store} {type : EntityType α} {id : String} {entity : α}
    {row : Row α} {order : CheckOrder} {t : Transaction} {k : UInt64}
    (htrace : (on store).trace
        [.begin n order, .act n (.load type id), .act n (.save type entity)] =
      [.begun n order, .answered n (.load type id) (.ok (some row)),
        .answered n (.save type entity) (.ok ())])
    (hrun : (on store).run
        [.begin n order, .act n (.load type id), .act n (.save type entity)] =
      (on store).put n ⟨some t⟩ (store.relabel k)) :
    ∃ r body, store.record? ⟨type.kindName, id⟩ = some r ∧ type.decode r.body = .ok row.entity ∧
      type.encode entity = .ok body ∧
      t.writes = (∅ : WriteSet).insert ⟨type.kindName, type.id entity⟩ (some body) := by
  -- the transaction when it is begun, and when it has loaded
  obtain ⟨fresh, hfresh⟩ : ∃ fresh : Transaction,
      fresh = { id := store.lastTransaction + 1, order } := ⟨_, rfl⟩
  obtain ⟨looked, hlooked⟩ : ∃ looked : Transaction,
      looked = fresh.look store.nextTransaction ⟨type.kindName, id⟩ := ⟨_, rfl⟩
  have hactive : fresh.status = .active := by rw [hfresh]
  have hwrites : fresh.writes = ∅ := by rw [hfresh]
  have hactive' : looked.status = .active := by
    rw [hlooked, Transaction.status_look]
    exact hactive
  have hwrites' : looked.writes = ∅ := by
    rw [hlooked, Transaction.writes_look]
    exact hwrites
  -- the two steps in front of the save
  have hbegin : (on store).step (.begin n order) =
      (on store).put n ⟨some fresh⟩ store.nextTransaction := by
    rw [hfresh]
    rfl
  have hload : ((on store).put n ⟨some fresh⟩ store.nextTransaction).step (.act n (.load type id)) =
      (on store).put n ⟨some looked⟩ store.nextTransaction := by
    simp [World.step, Operation.run, Session.load_active hactive, hlooked]
  have hnobody : (on store).sessions n = none := rfl
  simp only [trace, hbegin, hload, event?, sessions_put, if_true, store_put, Option.toList_some,
    Operation.run, hnobody, List.cons_append, List.nil_append, List.cons.injEq,
    Event.answered.injEq, heq_eq_eq, true_and, and_true] at htrace
  -- the answers of the run are those of the load and of the save
  obtain ⟨hanswer, hsaved⟩ := htrace
  obtain ⟨r, hr, hdecode⟩ := record_of_load hactive hwrites hanswer
  obtain ⟨body, hencode, hsave⟩ := writes_of_save hactive' hsaved
  refine ⟨r, body, hr, hdecode, hencode, ?_⟩
  rw [run_cons, hbegin, run_cons, hload, run_cons, run_nil] at hrun
  simp only [World.step, sessions_put, if_true, store_put, put_put, Operation.run, hsave] at hrun
  have hmine := congrArg (fun w => w.sessions n) hrun
  simp only [sessions_put, if_true, Option.some.injEq, Session.mk.injEq] at hmine
  rw [← hmine, Transaction.buffer, hwrites']

/-- The step of a commit that succeeds, and the transaction that it ends. -/
private theorem commit_of_event {step : Step} {e : Event} (he : w.event? step = some e)
    (hcommits : e.commits = true) :
    e = .committed e.session ∧ step = .act e.session (.finish .commit) ∧
      ∃ t, w.open? e.session = some t ∧
        ((Session.mk (some t)).commit w.store).result = .ok () := by
  -- of all steps only an operation commits, and of all operations only a commit
  cases step with
  | register kind => cases he
  | act n op =>
    rw [event?] at he
    split at he
    · cases he
    · next s hs =>
      obtain rfl := Option.some.inj he
      cases op with
      | finish ending =>
        cases ending with
        | rollback => cases hcommits
        | commit =>
          cases hresult : ((Operation.finish .commit).run s w.store).result with
          -- a commit that fails is an event that commits nothing
          | error cause =>
            rw [hresult] at hcommits
            cases hcommits
          | ok _ =>
            refine ⟨rfl, rfl, ?_⟩
            obtain ⟨_ | t⟩ := s
            · cases hresult
            · exact ⟨t, open?_eq_some_iff.2 ⟨hs, Session.active_of_commit hresult⟩, hresult⟩
      | _ => cases hcommits
  | _ =>
    rw [event?] at he
    split at he
    · obtain rfl := Option.some.inj he
      cases hcommits
    · cases he

/-- The commit is the last event of an update. -/
private theorem events_of_commit {earlier later : List Event} {first second third fourth : Event}
    (hsplit : earlier ++ .committed n :: later = [first, second, third, fourth])
    (hfirst : first.commits = false) (hsecond : second.commits = false)
    (hthird : third.commits = false) : earlier = [first, second, third] := by
  have hcommits : (Event.committed n).commits = true := rfl
  -- no event in front of the commit commits, so the commit is the fourth
  rcases earlier with _ | ⟨e₁, _ | ⟨e₂, _ | ⟨e₃, _ | ⟨e₄, earlier⟩⟩⟩⟩ <;>
    simp only [List.nil_append, List.cons_append, List.cons.injEq] at hsplit
  · rw [hsplit.1, hfirst] at hcommits
    cases hcommits
  · rw [hsplit.2.1, hsecond] at hcommits
    cases hcommits
  · rw [hsplit.2.2.1, hthird] at hcommits
    cases hcommits
  · obtain ⟨rfl, rfl, rfl, -⟩ := hsplit
    rfl
  · simp at hsplit

section

variable {steps : List Step} (hw : w.Sound) (hfree : ∀ n, w.sessions n = none)
  (hroom : w.store.version.toNat + w.handedOut steps < UInt64.size)
  (hkinds : ∀ step ∈ steps, step.registers = false) (hquery : w.NoQuery steps)
  (hreload : w.NoReload steps)

include hw hfree hroom hkinds hquery hreload

/-- A commit that succeeds at the end of an update leaves what the function makes of the
    record. -/
private theorem record?_commit {type : EntityType α} {id : String} {entity : α} {row : Row α}
    {order : CheckOrder} {t : Transaction} (hopen : (w.run steps).open? n = some t)
    (hok : ((Session.mk (some t)).commit (w.run steps).store).result = .ok ())
    (hevents : w.eventsOf n steps = [.begun n order,
      .answered n (.load type id) (.ok (some row)), .answered n (.save type entity) (.ok ())]) :
    ∃ r body, (w.run steps).store.record? ⟨type.kindName, id⟩ = some r ∧
      type.decode r.body = .ok row.entity ∧ type.encode entity = .ok body ∧
      ((w.run steps).step (.act n (.finish .commit))).store.record?
          ⟨type.kindName, type.id entity⟩ =
        some ⟨((w.run steps).step (.act n (.finish .commit))).store.version, body⟩ := by
  obtain ⟨hs, ht⟩ := open?_eq_some_iff.1 hopen
  have hwithin := within_run hw.within steps
  rcases Session.commit_cases ht (hwithin n _ hs t rfl) with ⟨reason, hrun⟩ | ⟨hrun, hfresh⟩
  · rw [hrun] at hok
    cases hok
  -- carried out alone on the store of the commit, the transaction holds the same back
  have hagrees := looked_agrees hw (hfree n) hroom hkinds hreload hopen hfresh
  obtain ⟨htrace, t', k, halike, hreplay⟩ :=
    replay hw.within (hfree n) hkinds hquery hopen (u := on (w.run steps).store) rfl hagrees
  rw [hevents] at htrace hreplay
  obtain ⟨r, body, hr, hdecode, hencode, hwrites⟩ := update_alone htrace hreplay
  refine ⟨r, body, hr, hdecode, hencode, ?_⟩
  -- the commit writes what the transaction holds back, which is the one record
  have hstep : (w.run steps).writes (.act n (.finish .commit)) = t.writes := by
    simp only [World.writes, hs, Operation.writes, Operation.run, Session.finish, hok,
      Operation.ending?, if_true]
  rw [record?_step hwithin, hstep, ← halike.writes_eq, hwrites, Std.ExtTreeMap.getElem?_insert,
    if_pos (Std.LawfulEqOrd.compare_eq_iff_eq.2 rfl)]
  rfl

/-- The commit of an update takes the record one application of the function further. -/
private theorem record?_update {after : List Step} {last : Step} {type : EntityType α}
    {id : String} {f : α → α} {e : Event} (he : (w.run steps).event? last = some e)
    (hcommits : e.commits = true)
    (hupdates : w.Updates type id f e.session (steps ++ last :: after)) {r : Record} {x : α}
    (hr : (w.run steps).store.record? ⟨type.kindName, id⟩ = some r)
    (hdecode : type.decode r.body = .ok x) (hid : type.id (f x) = id) :
    ∃ r', ((w.run steps).step last).store.record? ⟨type.kindName, id⟩ = some r' ∧
      type.encode (f x) = .ok r'.body := by
  obtain ⟨hcommitted, rfl, t, hopen, hok⟩ := commit_of_event he hcommits
  obtain ⟨order, row, answer, hevents⟩ := hupdates
  rw [eventsOf_append, eventsOf_cons, he, Option.toList_some, hcommitted] at hevents
  have hearlier := events_of_commit (by simpa [Event.session] using hevents) rfl rfl rfl
  obtain ⟨r', body, hr', hdecode', hencode, hnew⟩ :=
    record?_commit hw hfree hroom hkinds hquery hreload hopen hok hearlier
  -- the entity loaded is the one that the record has come to
  obtain rfl := Option.some.inj (hr.symm.trans hr')
  have hentity : row.entity = x := Except.ok.inj (hdecode'.symm.trans hdecode)
  rw [hentity] at hnew hencode
  rw [hid] at hnew
  exact ⟨_, hnew, hencode⟩

end

section

variable {before after : List Step} {last : Step} {type : EntityType α} {id : String} {f : α → α}
  {updating : Nat → Bool}
  (hupdates : ∀ n, updating n = true → w.Updates type id f n (before ++ last :: after))
  (honly : ∀ step ∈ before ++ last :: after, step.change? = some ⟨type.kindName, id⟩ →
    ∃ n, step.session? = some n ∧ updating n = true)

include hupdates in
/-- The session of an update is not a plain one. -/
private theorem not_updating_of_plain (hw : w.Within) (hfree : w.sessions n = none) {β : Type}
    {op : Operation β} (hlast : last = .act n op)
    (hs : (w.run before).sessions n = some .plain) : updating n = false := by
  cases hupdating : updating n with
  | false => rfl
  | true =>
    obtain ⟨order, row, answer, hevents⟩ := hupdates n hupdating
    -- the first event of the session is its begin, but a plain session is not begun
    have hnot : (w.trace before).any (Event.begins n) = false := by
      rw [any_begins hw hfree, hs]
      rfl
    rw [hlast, eventsOf_append, eventsOf_cons, event?, hs] at hevents
    cases hearlier : w.eventsOf n before with
    -- if it has no event yet, its first one is the answer to this operation
    | nil =>
      rw [hearlier] at hevents
      simp [Event.session] at hevents
    | cons first earlier =>
      rw [hearlier, List.cons_append, List.cons.injEq] at hevents
      have hfirst : first ∈ w.eventsOf n before := hearlier ▸ List.mem_cons_self
      have hmem : Event.begun n order ∈ w.trace before := hevents.1 ▸ (List.mem_filter.1 hfirst).1
      exact absurd (beq_self_eq_true n) (List.any_eq_false.1 hnot _ hmem)

include honly in
/-- A transaction that holds a write of the record back belongs to an update. -/
private theorem updating_of_pending (hw : w.Within) (hfree : w.sessions n = none)
    {t : Transaction} (hopen : (w.run before).open? n = some t) {body : Option Json}
    (hpending : t.writes[(⟨type.kindName, id⟩ : RecordKey)]? = some body) :
    updating n = true := by
  have hheld : t.writes[(⟨type.kindName, id⟩ : RecordKey)]? ≠ none := by
    rw [hpending]
    exact Option.some_ne_none _
  obtain ⟨step, hmem, hsession, hchange⟩ := change_of_pending hw hfree hopen hheld
  obtain ⟨m, hm, hupdating⟩ := honly step (List.mem_append_left _ hmem) hchange
  obtain rfl := Option.some.inj (hsession.symm.trans hm)
  exact hupdating

include hupdates honly in
/-- Only a commit of an update writes the record. -/
private theorem not_written (hw : w.Within) (hfree : ∀ n, w.sessions n = none) {e : Event}
    (he : (w.run before).event? last = some e)
    (hcommit : ¬ (e.commits && updating e.session) = true) :
    ((w.run before).writes last)[(⟨type.kindName, id⟩ : RecordKey)]? = none := by
  cases hwrite : ((w.run before).writes last)[(⟨type.kindName, id⟩ : RecordKey)]? with
  | none => rfl
  | some body =>
    rcases writes_cases hwrite with ⟨n, β, op, rfl, hs, hchange⟩ | ⟨n, t, rfl, hopen, hok, hpending⟩
    · -- a plain session: it would have to belong to an update
      have hlast : (Step.act n op).change? = some ⟨type.kindName, id⟩ := by
        rw [Step.change?, hchange]
        rfl
      obtain ⟨m, hm, hupdating⟩ := honly (.act n op) (by simp) hlast
      obtain rfl := Option.some.inj hm
      rw [not_updating_of_plain hupdates hw (hfree n) rfl hs] at hupdating
      cases hupdating
    · -- a transaction: the commit is that of an update after all
      have hupdating := updating_of_pending honly hw (hfree n) hopen hpending
      simp only [event?, (open?_eq_some_iff.1 hopen).1, hok, Option.some.injEq] at he
      subst he
      exact absurd (Bool.and_eq_true_iff.2 ⟨rfl, hupdating⟩) hcommit

end

/-- Updates add up.  A record that only updates write has gone through the function once for
    every commit of an update that succeeded. -/
theorem record?_updates (hw : w.Sound) (hfree : ∀ n, w.sessions n = none) {steps : List Step}
    (hroom : w.store.version.toNat + w.handedOut steps < UInt64.size)
    (hkinds : ∀ step ∈ steps, step.registers = false) (hquery : w.NoQuery steps)
    (hreload : w.NoReload steps) {type : EntityType α} {id : String} {f : α → α}
    {updating : Nat → Bool}
    (hupdates : ∀ n, updating n = true → w.Updates type id f n steps)
    (honly : ∀ step ∈ steps, step.change? = some ⟨type.kindName, id⟩ →
      ∃ n, step.session? = some n ∧ updating n = true)
    (hcodec : ∀ entity body, type.encode (f entity) = .ok body →
      type.decode body = .ok (f entity))
    (hid : ∀ entity, type.id (f entity) = type.id entity) {r₀ : Record} {e₀ : α}
    (hr₀ : w.store.record? ⟨type.kindName, id⟩ = some r₀) (he₀ : type.decode r₀.body = .ok e₀)
    (hid₀ : type.id e₀ = id) :
    ∃ r, (w.run steps).store.record? ⟨type.kindName, id⟩ = some r ∧
      type.decode r.body =
        .ok (Nat.repeat f
          ((w.trace steps).countP fun e => e.commits && updating e.session) e₀) := by
  have hids : ∀ k, type.id (Nat.repeat f k e₀) = id := by
    intro k
    induction k with
    | zero => exact hid₀
    | succ k ih => exact (hid _).trans ih
  -- the statement holds behind every step of the run
  suffices hprefix : ∀ steps₁ steps₂, steps = steps₁ ++ steps₂ →
      ∃ r, (w.run steps₁).store.record? ⟨type.kindName, id⟩ = some r ∧
        type.decode r.body = .ok (Nat.repeat f
          ((w.trace steps₁).countP fun e => e.commits && updating e.session) e₀) from
    hprefix steps [] (List.append_nil steps).symm
  intro steps₁
  induction steps₁ using List.reverseRecOn with
  | nil =>
    intro steps₂ _
    exact ⟨r₀, hr₀, he₀⟩
  | append_singleton steps₁ last ih =>
    intro steps₂ hsplit
    rw [List.append_assoc, List.singleton_append] at hsplit
    obtain ⟨r, hr, hdecode⟩ := ih (last :: steps₂) hsplit
    subst hsplit
    rw [handedOut_append, handedOut] at hroom
    have hwithin := within_run hw.within steps₁
    have hkinds₁ : ∀ step ∈ steps₁, step.registers = false := fun step h =>
      hkinds step (List.mem_append_left _ h)
    rw [run_concat, trace_concat, List.countP_append]
    cases he : (w.run steps₁).event? last with
    | none =>
      -- nothing happens
      have hlast : last.registers = false := hkinds last (by simp)
      rw [step_of_event?_none hlast he]
      exact ⟨r, hr, hdecode⟩
    | some e =>
      rw [Option.toList_some, List.countP_singleton]
      by_cases hcommit : (e.commits && updating e.session) = true
      · -- a commit of an update takes the value one step on, and is counted
        obtain ⟨hcommits, hupdating⟩ := Bool.and_eq_true_iff.1 hcommit
        obtain ⟨r', hr', hencode⟩ := record?_update hw hfree (by omega) hkinds₁
          ((noQuery_append ..).1 hquery).1 hreload.append.1 he hcommits
          (hupdates e.session hupdating) hr hdecode ((hid _).trans (hids _))
        refine ⟨r', hr', ?_⟩
        rw [if_pos hcommit]
        exact hcodec _ _ hencode
      · -- any other event leaves the record, and is not counted
        have hnot := not_written hupdates honly hw.within hfree he hcommit
        refine ⟨r, ?_, ?_⟩
        · rw [record?_step hwithin, hnot, hr]
        · rw [if_neg hcommit]
          exact hdecode

end World

end EntityStore
