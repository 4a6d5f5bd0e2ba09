import EntityStore.Proofs.Session.Update

/-! # The serial order of a run

Transactions that commit might as well have run one after the other, each as a whole at the
place of its commit.  The serial order of a run moves the events of every such transaction
there, drops all other transactions, and leaves plain sessions where they are.  Its steps
lead to the very events it was made of, and to the same data.

* `World.serial`         the serial order of a run
* `World.Mirrors`        how the world of the serial order relates to that of the run
* `World.serial_mirrors`  one step of the run after the other, the serial order keeps up
* `World.serializable`   the serial order gives the same answers and the same data -/

namespace EntityStore

namespace Event

/-- What the serial order has in place of an event.  A commit that succeeds brings along all
    that its transaction did before; another event of a transaction is left out. -/
def inPlace (past : List Event) (e : Event) : List Event :=
  if e.commits then (past.filter fun e' => e'.session == e.session) ++ [e]
  else if (past ++ [e]).any (begins e.session) then []
  else [e]

/-- The serial order of events behind those of the past. -/
def serialize (past : List Event) : List Event → List Event
  | [] => []
  | e :: events => inPlace past e ++ serialize (past ++ [e]) events

/-- Events are put in order one after the other, each behind those of its past. -/
theorem serialize_append (past a b : List Event) :
    serialize past (a ++ b) = serialize past a ++ serialize (past ++ a) b := by
  induction a generalizing past with
  | nil => simp [serialize]
  | cons e a ih => simp [serialize, ih]

/-- The only event that commits is the commit that was accepted. -/
theorem eq_committed {e : Event} (h : e.commits = true) : e = committed e.session := by
  cases e with
  | answered n op answer =>
    cases op with
    | finish ending =>
      cases ending with
      | rollback => cases h
      | commit =>
        -- a commit that fails is an answer as well, but does not commit
        cases answer with
        | error e => cases h
        | ok _ => rfl
    | _ => cases h
  | _ => cases h

/-- The serial order has a transaction as a whole, with its commit, or not at all. -/
theorem committed_of_begun {n : Nat} {order : CheckOrder} {past events : List Event}
    (h : .begun n order ∈ serialize past events) : .committed n ∈ serialize past events := by
  -- along the events; only a commit brings a begin along
  induction events generalizing past with
  | nil => cases h
  | cons e events ih =>
    rw [serialize, List.mem_append] at h ⊢
    refine h.imp (fun h => ?_) ih
    rw [inPlace] at h ⊢
    split at h
    · -- the events of the transaction come with its commit
      next hcommits =>
      rw [if_pos hcommits]
      rcases List.mem_append.1 h with h | h
      · have hn : n = e.session := beq_iff_eq.1 (List.mem_filter.1 h).2
        rw [eq_committed hcommits, ← hn]
        simp
      · rw [← List.mem_singleton.1 h] at hcommits
        cases hcommits
    · split at h
      · cases h
      · -- a begin is not left in its place
        next hbegins =>
        rw [← List.mem_singleton.1 h] at hbegins
        simp [begins, session] at hbegins

end Event

namespace World

/-- The serial order of a run. -/
def serial (w : World) (steps : List Step) : List Event := Event.serialize [] (w.trace steps)

/-- What the serial order has in place of the event of a step, if there is one. -/
def placed (w : World) (steps : List Step) (last : Step) : List Event :=
  match (w.run steps).event? last with
  | none => []
  | some e => Event.inPlace (w.trace steps) e

variable {w v W : World} {n : Nat}

/-- The last step adds its own place to the serial order. -/
theorem serial_concat (w : World) (steps : List Step) (last : Step) :
    w.serial (steps ++ [last]) = w.serial steps ++ w.placed steps last := by
  rw [serial, trace_concat, Event.serialize_append, List.nil_append, serial, placed]
  cases (w.run steps).event? last with
  | none => rfl
  | some e => simp [Event.serialize]

/-! ## Mirrored worlds -/

/-- The world of a serial order mirrors that of the run: it has the same data and plain
    sessions, and does not know of transactions that are open. -/
structure Mirrors (v W : World) : Prop where
  store : ∃ k, v.store = W.store.relabel k
  free : ∀ n, W.sessions n = none → v.sessions n = none
  plain : ∀ n, W.sessions n = some .plain → v.sessions n = some .plain
  hidden : ∀ n t, W.open? n = some t → v.sessions n = none

/-- A session that is in no open transaction moves on in both worlds. -/
theorem Mirrors.put_both (h : Mirrors v W) {s s' : Session} {store store' : Store}
    (hstore : ∃ k, store' = store.relabel k)
    (hs : s = .plain ∧ s' = .plain ∨ ∃ t, s = ⟨some t⟩ ∧ t.status ≠ .active) :
    Mirrors (v.put n s' store') (W.put n s store) where
  store := hstore
  free m hm := by
    rw [sessions_put] at hm ⊢
    split at hm
    · cases hm
    · next hne =>
      rw [if_neg hne]
      exact h.free m hm
  plain m hm := by
    rw [sessions_put] at hm ⊢
    split at hm
    · next heq =>
      rw [if_pos heq]
      -- a plain session is one in both worlds
      rcases hs with ⟨-, rfl⟩ | ⟨t, rfl, -⟩
      · rfl
      · cases hm
    · next hne =>
      rw [if_neg hne]
      exact h.plain m hm
  hidden m t hm := by
    obtain ⟨hm, ht⟩ := open?_eq_some_iff.1 hm
    rw [sessions_put] at hm ⊢
    split at hm
    · -- nobody who moves on here is in an open transaction
      rcases hs with ⟨rfl, -⟩ | ⟨t', rfl, hstatus⟩
      · cases hm
      · cases hm
        exact absurd ht hstatus
    · next hne =>
      rw [if_neg hne]
      exact h.hidden m t (open?_eq_some_iff.2 ⟨hm, ht⟩)

/-- A transaction moves on in one world, and is not there yet in the other. -/
theorem Mirrors.put_right (h : Mirrors v W) {t : Transaction} {store : Store}
    (hstore : ∃ k, v.store = store.relabel k) (ht : t.status = .active → v.sessions n = none) :
    Mirrors v (W.put n ⟨some t⟩ store) where
  store := hstore
  free m hm := by
    rw [sessions_put] at hm
    split at hm
    · cases hm
    · exact h.free m hm
  plain m hm := by
    rw [sessions_put] at hm
    split at hm
    · cases hm
    · exact h.plain m hm
  hidden m t' hm := by
    obtain ⟨hm, ht'⟩ := open?_eq_some_iff.1 hm
    rw [sessions_put] at hm
    split at hm
    · next heq =>
      cases hm
      -- the number that moves on is free in the mirrored world while its transaction is open
      exact heq ▸ ht ht'
    · exact h.hidden m t' (open?_eq_some_iff.2 ⟨hm, ht'⟩)

/-! ## One event in its place -/

/-- An operation that is no commit commits nothing. -/
private theorem commits_eq_false {β : Type} {op : Operation β} (hop : op.ending? ≠ some .commit)
    (n : Nat) (answer : Except Error β) : (Event.answered n op answer).commits = false := by
  cases op with
  | finish ending =>
    cases ending with
    | commit => exact absurd rfl hop
    | rollback => rfl
  | _ => rfl

variable {steps : List Step}

/-- An operation of a plain session stays in its place. -/
private theorem placed_plain (hw : w.Within) (hfree : w.sessions n = none)
    (hs : (w.run steps).sessions n = some .plain) {β : Type} (op : Operation β) :
    w.placed steps (.act n op) =
      [.answered n op (op.run .plain (w.run steps).store).result] := by
  have hcommits : (Event.answered n op
      (op.run .plain (w.run steps).store).result).commits = false := by
    cases op with
    | finish ending => cases ending <;> rfl
    | _ => rfl
  -- a plain session has never begun a transaction
  have hbegun : (w.trace steps).any (Event.begins n) = false := by
    rw [any_begins hw hfree, hs]
    rfl
  simp [placed, event?, hs, Event.inPlace, hcommits, Event.session, hbegun, Event.begins]

/-- An operation of a transaction waits for the commit, and is dropped without one. -/
private theorem placed_dropped (hw : w.Within) (hfree : w.sessions n = none) {t : Transaction}
    (hs : (w.run steps).sessions n = some ⟨some t⟩) {β : Type} (op : Operation β)
    (hcommits : (Event.answered n op
      (op.run ⟨some t⟩ (w.run steps).store).result).commits = false) :
    w.placed steps (.act n op) = [] := by
  have hbegun : (w.trace steps).any (Event.begins n) = true := by
    rw [any_begins hw hfree, hs]
    rfl
  simp [placed, event?, hs, Event.inPlace, hcommits, Event.session, hbegun]

/-- The opening of a plain session stays in its place. -/
private theorem placed_opened (hw : w.Within) (hfree : w.sessions n = none)
    (hs : (w.run steps).sessions n = none) : w.placed steps (.plain n) = [.opened n] := by
  have hbegun : (w.trace steps).any (Event.begins n) = false := by
    rw [any_begins hw hfree, hs]
    rfl
  simp [placed, event?, hs, Event.inPlace, Event.commits, Event.session, hbegun, Event.begins]

/-- A begin waits for the commit of its transaction. -/
private theorem placed_begun (hs : (w.run steps).sessions n = none) (order : CheckOrder) :
    w.placed steps (.begin n order) = [] := by
  simp [placed, event?, hs, Event.inPlace, Event.commits, Event.session, Event.begins]

/-- A commit brings all events of its transaction along. -/
private theorem placed_commit {t : Transaction}
    (hs : (w.run steps).sessions n = some ⟨some t⟩)
    (hok : ((Session.mk (some t)).commit (w.run steps).store).result = .ok ()) :
    w.placed steps (.act n (.finish .commit)) =
      w.eventsOf n steps ++ [.committed n] := by
  simp [placed, event?, hs, Operation.run, Session.finish, hok, Event.inPlace, Event.commits,
    Event.session, eventsOf, Event.committed]

/-- A plain operation does the same in a mirrored world. -/
private theorem Mirrors.act_plain (h : Mirrors v W) (hs : W.sessions n = some .plain) {β : Type}
    (op : Operation β) :
    v.trace [.act n op] = [.answered n op (op.run .plain W.store).result] ∧
      Mirrors (v.run [.act n op]) (W.step (.act n op)) := by
  obtain ⟨k, hk⟩ := h.store
  have hv := h.plain n hs
  -- the stores differ in the last transaction id, which no plain operation looks at
  have hrun := op.run_relabel .plain W.store k
  rw [← hk] at hrun
  have hstate := (op.run_plain W.store).1
  refine ⟨by simp [trace, event?, hv, hrun], ?_⟩
  simp only [run_cons, run_nil, World.step, hv, hs, hrun]
  exact h.put_both ⟨k, rfl⟩ (.inl ⟨hstate, hstate⟩)

/-- An operation of a transaction that changes no data is left out. -/
private theorem dropped_mirrors (hw : w.Within) (hfree : w.sessions n = none)
    (h : Mirrors v (w.run steps)) {t t' : Transaction}
    (hs : (w.run steps).sessions n = some ⟨some t⟩) {β : Type} (op : Operation β)
    (hcommits : (Event.answered n op
      (op.run ⟨some t⟩ (w.run steps).store).result).commits = false)
    (hstore : (op.run ⟨some t⟩ (w.run steps).store).store = (w.run steps).store)
    (hstate : (op.run ⟨some t⟩ (w.run steps).store).state = ⟨some t'⟩)
    (ht' : t'.status = .active → t.status = .active) :
    v.trace ((w.placed steps (.act n op)).map Event.step) = w.placed steps (.act n op) ∧
      Mirrors (v.run ((w.placed steps (.act n op)).map Event.step))
        ((w.run steps).step (.act n op)) := by
  -- the world of the serial order stays where it is
  rw [placed_dropped hw hfree hs op hcommits]
  refine ⟨rfl, ?_⟩
  simp only [List.map_nil, run_nil, World.step, hs, hstore, hstate]
  exact h.put_right h.store fun hactive =>
    h.hidden n t (open?_eq_some_iff.2 ⟨hs, ht' hactive⟩)

/-- A transaction that commits is carried out as a whole in the mirrored world. -/
private theorem Mirrors.act_commit (h : Mirrors v W) {t : Transaction}
    (hopen : W.open? n = some t) (hwithin : t.Within W.store)
    (hok : ((Session.mk (some t)).commit W.store).result = .ok ()) {events : List Event}
    (htrace : v.trace (events.map Event.step) = events) {t' : Transaction} {k' : UInt64}
    (halike : t.Alike t')
    (hrun : v.run (events.map Event.step) = v.put n ⟨some t'⟩ (v.store.relabel k')) :
    v.trace ((events ++ [Event.committed n]).map Event.step) = events ++ [Event.committed n] ∧
      Mirrors (v.run ((events ++ [Event.committed n]).map Event.step))
        (W.step (.act n (.finish .commit))) := by
  obtain ⟨k, hk⟩ := h.store
  obtain ⟨hs, ht⟩ := open?_eq_some_iff.1 hopen
  have hmine : (v.put n ⟨some t'⟩ (v.store.relabel k')).sessions n = some ⟨some t'⟩ := by simp
  -- the commit in the mirrored world has the same outcome, up to transaction ids
  have hrelabel := (Operation.finish .commit).run_relabel ⟨some t'⟩ W.store k'
  have hsame := (Operation.finish .commit).run_alike halike ht W.store
  rw [show W.store.relabel k' = v.store.relabel k' by rw [hk]; rfl] at hrelabel
  have hresult : ((Operation.finish .commit).run ⟨some t'⟩ (v.store.relabel k')).result =
      .ok () := by
    rw [hrelabel]
    exact hsame.1.trans hok
  have hstore : ((Operation.finish .commit).run ⟨some t'⟩ (v.store.relabel k')).store =
      ((Operation.finish .commit).run ⟨some t⟩ W.store).store.relabel k' := by
    rw [hrelabel, hsame.2]
  rw [List.map_append, trace_append, run_append, htrace, hrun]
  -- the one event behind the others is the commit, and it leaves the transaction finished
  refine ⟨?_, ?_⟩
  · simp only [List.map_cons, List.map_nil, Event.committed, Event.step, trace, event?, hmine,
      store_put, hresult, Option.toList_some, List.append_nil]
  · simp only [List.map_cons, List.map_nil, Event.committed, Event.step, run_cons, run_nil,
      World.step, hmine, hs, store_put, put_put, hstore]
    obtain ⟨status, hstatus, hstate⟩ := Operation.run_finish .commit ht hwithin
    exact h.put_both ⟨k', rfl⟩ (.inr ⟨t.finish status, hstate, hstatus⟩)

/-- A commit that passes has its place in the serial order. -/
private theorem commit_mirrors (hw : w.Sound) (hfree : w.sessions n = none) {t : Transaction}
    (hopen : (w.run steps).open? n = some t)
    (hroom : w.store.version.toNat + w.handedOut steps < UInt64.size)
    (hkinds : ∀ step ∈ steps, step.registers = false) (hquery : w.NoQuery steps)
    (hreload : w.NoReload steps) (h : Mirrors v (w.run steps))
    (hok : ((Session.mk (some t)).commit (w.run steps).store).result = .ok ())
    (hfresh : ∀ (key : RecordKey) (seen : UInt64), t.reads[key]? = some seen →
      Record.seenVersion ((w.run steps).store.record? key) = seen) :
    v.trace ((w.placed steps (.act n (.finish .commit))).map Event.step) =
        w.placed steps (.act n (.finish .commit)) ∧
      Mirrors (v.run ((w.placed steps (.act n (.finish .commit))).map Event.step))
        ((w.run steps).step (.act n (.finish .commit))) := by
  obtain ⟨hs, -⟩ := open?_eq_some_iff.1 hopen
  obtain ⟨k, hk⟩ := h.store
  -- the mirrored world holds all that the transaction has found, so its events come again
  have hagrees : w.Agrees n steps v.store := by
    have hthere := looked_agrees hw hfree hroom hkinds hreload hopen hfresh
    rw [hk]
    exact ⟨hthere.kinds, hthere.records⟩
  obtain ⟨htrace, t', k', halike, hreplay⟩ :=
    replay hw.within hfree hkinds hquery hopen (h.hidden n t hopen) hagrees
  rw [placed_commit hs hok]
  exact h.act_commit hopen (within_run hw.within steps n _ hs t rfl) hok htrace halike hreplay

/-- An operation of a transaction has its place in the serial order. -/
private theorem act_mirrors (hw : w.Sound) (hfree : w.sessions n = none) {t : Transaction}
    (hs : (w.run steps).sessions n = some ⟨some t⟩)
    (hroom : w.store.version.toNat + w.handedOut steps < UInt64.size)
    (hkinds : ∀ step ∈ steps, step.registers = false) (hquery : w.NoQuery steps)
    (hreload : w.NoReload steps) (h : Mirrors v (w.run steps)) {β : Type} (op : Operation β) :
    v.trace ((w.placed steps (.act n op)).map Event.step) = w.placed steps (.act n op) ∧
      Mirrors (v.run ((w.placed steps (.act n op)).map Event.step))
        ((w.run steps).step (.act n op)) := by
  have hwithin : t.Within (w.run steps).store := within_run hw.within steps n _ hs t rfl
  by_cases ht : t.status = .active
  case neg =>
    -- a transaction that has finished is refused
    obtain ⟨hstore, hstate, -⟩ := op.run_finished ht (w.run steps).store
    refine dropped_mirrors hw.within hfree h hs op ?_ hstore hstate id
    cases op with
    | finish ending =>
      cases ending with
      | commit =>
        rw [Operation.run, Session.finish, Session.commit, Session.active_of_finished ht]
        rfl
      | rollback => rfl
    | _ => rfl
  cases hending : op.ending? with
  | none =>
    -- what it holds back is not in the store yet
    obtain ⟨hstore, hstate⟩ := op.run_active hending ht hwithin
    exact dropped_mirrors hw.within hfree h hs op
      (commits_eq_false (by rw [hending]; exact (Option.some_ne_none _).symm) _ _) hstore hstate
      fun _ => ht
  | some ending =>
    cases op with
    | finish ending =>
      cases ending with
      | rollback =>
        have hrun := Session.rollback_of_active ht (w.run steps).store
        exact dropped_mirrors hw.within hfree h hs (.finish .rollback)
          (commits_eq_false (by simp [Operation.ending?]) _ _) (congrArg Outcome.store hrun)
          (congrArg Outcome.state hrun) fun _ => ht
      | commit =>
        rcases Session.commit_cases ht hwithin with ⟨reason, hrun⟩ | ⟨hrun, hfresh⟩
        · -- a commit that fails writes nothing, so it is dropped
          refine dropped_mirrors hw.within hfree h hs _ ?_ (congrArg Outcome.store hrun)
            (congrArg Outcome.state hrun) fun _ => ht
          rw [Operation.run, Session.finish, hrun]
          rfl
        · exact commit_mirrors hw hfree (open?_eq_some_iff.2 ⟨hs, ht⟩) hroom hkinds hquery hreload
            h (congrArg Outcome.result hrun) hfresh
    | _ => cases hending

/-- One step of the run after the other, the serial order keeps up. -/
theorem placed_mirrors (hw : w.Sound) (hfree : ∀ n, w.sessions n = none) {last : Step}
    (hroom : w.store.version.toNat + w.handedOut steps < UInt64.size)
    (hkinds : ∀ step ∈ steps ++ [last], step.registers = false) (hquery : w.NoQuery steps)
    (hreload : w.NoReload steps) (h : Mirrors v (w.run steps)) :
    v.trace ((w.placed steps last).map Event.step) = w.placed steps last ∧
      Mirrors (v.run ((w.placed steps last).map Event.step)) ((w.run steps).step last) := by
  have hlast : last.registers = false := hkinds last (by simp)
  cases he : (w.run steps).event? last with
  | none =>
    rw [placed, he, step_of_event?_none hlast he]
    exact ⟨rfl, h⟩
  | some e =>
    cases last with
    | register kind => cases hlast
    | plain n =>
      cases hs : (w.run steps).sessions n with
      | some s => simp only [event?, hs, reduceCtorEq] at he
      | none =>
        -- the number is free in both worlds
        have hv := h.free n hs
        rw [placed_opened hw.within (hfree n) hs]
        refine ⟨by simp [trace, event?, Event.step, hv], ?_⟩
        simp only [List.map_cons, List.map_nil, Event.step, run_cons, run_nil, World.step, hv, hs]
        exact h.put_both h.store (.inl ⟨rfl, rfl⟩)
    | begin n order =>
      cases hs : (w.run steps).sessions n with
      | some s => simp only [event?, hs, reduceCtorEq] at he
      | none =>
        -- the mirrored world does not open the transaction before it commits
        obtain ⟨k, hk⟩ := h.store
        rw [placed_begun hs order]
        refine ⟨rfl, ?_⟩
        simp only [List.map_nil, run_nil, World.step, hs]
        exact h.put_right ⟨k, hk⟩ fun _ => h.free n hs
    | act n op =>
      cases hs : (w.run steps).sessions n with
      | none => simp only [event?, hs, reduceCtorEq] at he
      | some s =>
        obtain ⟨_ | t⟩ := s
        · rw [placed_plain hw.within (hfree n) hs]
          exact h.act_plain hs op
        · have hkinds' : ∀ step ∈ steps, step.registers = false := fun step hstep =>
            hkinds step (List.mem_append_left _ hstep)
          exact act_mirrors hw (hfree n) hs hroom hkinds' hquery hreload h op

/-- The serial order leads to its own events, and to a world that mirrors that of the run. -/
theorem serial_mirrors (hw : w.Sound) (hfree : ∀ n, w.sessions n = none)
    (hroom : w.store.version.toNat + w.handedOut steps < UInt64.size)
    (hkinds : ∀ step ∈ steps, step.registers = false) (hquery : w.NoQuery steps)
    (hreload : w.NoReload steps) :
    w.trace ((w.serial steps).map Event.step) = w.serial steps ∧
      Mirrors (w.run ((w.serial steps).map Event.step)) (w.run steps) := by
  -- along the steps; the two worlds mirror each other in front of the last one
  induction steps using List.reverseRecOn with
  | nil =>
    refine ⟨rfl, ⟨⟨w.store.lastTransaction, rfl⟩, fun _ h => h, fun _ h => h, fun n t h => ?_⟩⟩
    exact absurd (hfree n) (ne_none_of_open? h)
  | append_singleton steps last ih =>
    rw [handedOut_append] at hroom
    obtain ⟨htrace, hmirrors⟩ := ih (by omega)
      (fun step h => hkinds step (List.mem_append_left _ h)) ((noQuery_append ..).1 hquery).1
      hreload.append.1
    obtain ⟨hplaced, hnext⟩ := placed_mirrors hw hfree (by omega) hkinds
      ((noQuery_append ..).1 hquery).1 hreload.append.1 hmirrors
    rw [serial_concat, List.map_append, trace_append, run_append, htrace, hplaced, run_concat]
    exact ⟨rfl, hnext⟩

/-! ## Serializability -/

/-- A world in which all sessions are gone is sound, with as many versions as were taken. -/
theorem sound_restart (before : List Step) (hroom : init.handedOut before < UInt64.size) :
    (init.run before).restart.Sound ∧
      (init.run before).restart.store.version.toNat = init.handedOut before := by
  have hzero : init.store.version.toNat = 0 := rfl
  obtain ⟨hsound, hversion⟩ := sound_run sound_init before (by omega)
  exact ⟨sound_on hsound.positive hsound.le_version, hversion.trans (by omega)⟩

/-- Committed transactions are serializable in the order of their commits.  The steps of the
    serial order get the same answers, every transaction among them commits, and they leave
    the same tables and the same version.  In particular no update of a record is lost that
    transactions make by loading it, changing it and saving it. -/
theorem serializable {before steps : List Step}
    (hroom : init.handedOut before + (init.run before).restart.handedOut steps < UInt64.size)
    (hkinds : ∀ step ∈ steps, step.registers = false)
    (hquery : (init.run before).restart.NoQuery steps)
    (hreload : (init.run before).restart.NoReload steps) :
    let w := (init.run before).restart
    let serial := w.serial steps
    let w' := w.run (serial.map Event.step)
    w.trace (serial.map Event.step) = serial ∧
      (∀ n order, .begun n order ∈ serial → .committed n ∈ serial) ∧
      w'.store.tables = (w.run steps).store.tables ∧
      w'.store.version = (w.run steps).store.version ∧
      ∀ {α : Type} (type : EntityType α) (id : String) (f : α → α) (updating : Nat → Bool)
        (r₀ : Record) (e₀ : α),
        (∀ n, updating n = true → w.Updates type id f n steps) →
        (∀ step ∈ steps, step.change? = some ⟨type.kindName, id⟩ →
          ∃ n, step.session? = some n ∧ updating n = true) →
        (∀ entity body, type.encode (f entity) = .ok body →
          type.decode body = .ok (f entity)) →
        (∀ entity, type.id (f entity) = type.id entity) →
        w.store.record? ⟨type.kindName, id⟩ = some r₀ → type.decode r₀.body = .ok e₀ →
        type.id e₀ = id →
        ∃ r, (w.run steps).store.record? ⟨type.kindName, id⟩ = some r ∧
          type.decode r.body =
            .ok (Nat.repeat f
              ((w.trace steps).countP fun e => e.commits && updating e.session) e₀) := by
  obtain ⟨hsound, hversion⟩ := sound_restart before (by omega)
  have hfree : ∀ n, (init.run before).restart.sessions n = none := fun _ => rfl
  have hroom' : (init.run before).restart.store.version.toNat +
      (init.run before).restart.handedOut steps < UInt64.size := by
    rw [hversion]
    exact hroom
  -- the world of the serial order mirrors that of the run, so it has the same tables
  obtain ⟨htrace, hmirrors⟩ := serial_mirrors hsound hfree hroom' hkinds hquery hreload
  obtain ⟨k, hk⟩ := hmirrors.store
  refine ⟨htrace, fun n order => Event.committed_of_begun, by rw [hk]; rfl, by rw [hk]; rfl, ?_⟩
  intro α type id f updating r₀ e₀ hupdates honly hcodec hid hr₀ he₀ hid₀
  exact record?_updates hsound hfree hroom' hkinds hquery hreload hupdates honly hcodec hid hr₀
    he₀ hid₀

end World

/-! ## Counters -/

namespace Counter

open World

/-- Counters, under their ids. -/
def type : EntityType (String × Nat) where
  kind := ⟨"Counter", "counters::Counter"⟩
  id := Prod.fst
  encode c := .ok (.arr [.str c.1, .int c.2])
  decode
    | .arr [.str id, .int n] => .ok (id, n.toNat)
    | body => .error (.invalidType body "a counter")

def increment (c : String × Nat) : String × Nat := (c.1, c.2 + 1)

/-- A counter is there. -/
def ready : List Step := [.register type.kind, .plain 0, .act 0 (.save type ("c", 0))]

/-- Two transactions increment the counter at once, and one of them conflicts.  Another one
    succeeds later on. -/
def overlapping : List Step :=
  [.begin 1, .begin 2, .act 1 (.load type "c"), .act 2 (.load type "c"),
    .act 1 (.save type ("c", 1)), .act 2 (.save type ("c", 1)), .act 2 (.finish .commit),
    .act 1 (.finish .commit), .begin 3, .act 3 (.load type "c"), .act 3 (.save type ("c", 2)),
    .act 3 (.finish .commit)]

/-- The two increments that were committed are there. -/
theorem serializable_overlapping :
    (init.run ready).restart.trace
        (((init.run ready).restart.serial overlapping).map Event.step) =
      (init.run ready).restart.serial overlapping ∧
    ∃ r, ((init.run ready).restart.run overlapping).store.record? ⟨"Counter", "c"⟩ = some r ∧
      type.decode r.body = .ok ("c", 2) := by
  have hquery : (init.run ready).restart.NoQuery overlapping := by
    simp [NoQuery, overlapping, Step.query?, Operation.isQuery]
  have hreload : (init.run ready).restart.NoReload overlapping := by
    refine ⟨?_, ?_, ?_, ?_, ?_, ?_, ?_, ?_, ?_, ?_, ?_, ?_, trivial⟩
    all_goals
      intro n key h _ habsent
      -- a load finds the counter, and the other steps load nothing
      cases h <;> cases habsent
  have hserial := serializable (by decide +kernel)
    (by simp [overlapping, Step.registers]) hquery hreload
  refine ⟨hserial.1, ?_⟩
  have hcount : ((init.run ready).restart.trace overlapping).countP
      (fun e => e.commits && (e.session == 1 || e.session == 2 || e.session == 3)) = 2 := by
    decide +kernel
  -- two of the three commits succeed, so the counter has gone up by two
  have hupdates := hserial.2.2.2.2 type "c" increment (fun n => n == 1 || n == 2 || n == 3)
    ⟨1, .arr [.str "c", .int 0]⟩ ("c", 0)
  rw [hcount] at hupdates
  refine hupdates ?_ ?_ ?_ (fun _ => rfl) rfl rfl rfl
  · intro n hn
    simp only [Bool.or_eq_true, beq_iff_eq] at hn
    rcases hn with (rfl | rfl) | rfl
    · exact ⟨.ascending, ⟨"c", 1, ("c", 0)⟩, .error (.transactionConflict
        "Counter:c changed since read (read version 1, now 2)"), rfl⟩
    · exact ⟨.ascending, ⟨"c", 1, ("c", 0)⟩, .ok (), rfl⟩
    · exact ⟨.ascending, ⟨"c", 2, ("c", 1)⟩, .ok (), rfl⟩
  · simp [overlapping, Step.session?, Step.change?]
  · rintro c body h
    obtain rfl := Except.ok.inj h
    rfl

end Counter

end EntityStore
