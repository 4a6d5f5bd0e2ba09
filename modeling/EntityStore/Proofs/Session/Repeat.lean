import EntityStore.Proofs.Session.Update

/-! # Loads that are repeated

A transaction that loads a record twice may be given two answers, since others may write the
record in between.  The check at its commit compares the record with the first look only.  It
tells of every write behind that look but one kind: a record that was absent at the first look
and is absent again at the commit may have come and gone in the meantime, and what a second
load saw of it is not remembered.

* `World.LoadsTwice`             a transaction loads a record twice, and asks for no write before
* `World.record?_of_quiet`       until others touch it, a record is what it was at the first look
* `World.touched_of_answers_ne`  loads that differ show that others have touched the record
* `World.loads_twice_cases`      they make the commit conflict, with one exception -/

namespace EntityStore

namespace World

variable {α : Type} {w : World} {n : Nat} {key : RecordKey}

/-- In the course of some steps session `n` loads a record twice, with these answers.  The kind
    of the record was registered, and the session had not asked to write the record. -/
structure LoadsTwice (w : World) (n : Nat) (type : EntityType α) (id : String)
    (steps before between after : List Step) (first second : Except Error (Option (Row α))) :
    Prop where
  split : steps = before ++ .act n (.load type id) :: (between ++ .act n (.load type id) :: after)
  registered : (w.run before).store.isRegistered type.kindName = true
  unchanged : ∀ step ∈ before ++ .act n (.load type id) :: between,
    step.session? = some n → step.change? ≠ some ⟨type.kindName, id⟩
  first_eq : (w.run before).event? (.act n (.load type id)) =
    some (.answered n (.load type id) first)
  second_eq : (w.run (before ++ .act n (.load type id) :: between)).event?
      (.act n (.load type id)) = some (.answered n (.load type id) second)

/-! ## First looks -/

/-- The first look at a record is not behind any other. -/
theorem exists_firstLook_of_looks {a c : List Step} {step : Step}
    (h : (w.run a).Looks n key step) :
    ∃ before look after, w.FirstLook n key (a ++ step :: c) before look after ∧ before <+: a := by
  -- this look is the last one that could be the first
  have hseen : ¬ w.Unseen n key (a ++ [step]) := fun hunseen =>
    ((unseen_append ..).1 hunseen).2.1 h
  obtain ⟨before, look, after, hsplit, hunseen, hlook⟩ := exists_firstLook hseen
  refine ⟨before, look, after ++ c, ⟨?_, hunseen, hlook⟩, ?_⟩
  · rw [← List.cons_append, ← List.append_assoc, ← hsplit, List.append_assoc,
      List.singleton_append]
  · have hlength := congrArg List.length hsplit
    simp only [List.length_append, List.length_cons, List.length_nil] at hlength
    exact List.prefix_of_prefix_length_le ⟨look :: after, hsplit.symm⟩
      (List.prefix_append a [step]) (by omega)

/-- Until others touch it, a record is what it was at the first look. -/
theorem record?_of_quiet (hw : w.Sound) {steps before after : List Step} {look : Step}
    (hroom : w.store.version.toNat + w.handedOut steps < UInt64.size) {t : Transaction}
    (hopen : (w.run steps).open? n = some t) (hlook : w.FirstLook n key steps before look after)
    (hquiet : ¬ (w.run (before ++ [look])).TouchedByOthers n key after) {mid : List Step}
    (hbehind : before <+: mid) (hmid : mid <+: steps) :
    (w.run mid).store.record? key = (w.run before).store.record? key := by
  -- the record is compared over the steps since the look, so the run is cut there
  obtain ⟨rfl, -, hlooks⟩ := hlook
  obtain ⟨since, rfl⟩ := hbehind
  obtain ⟨rest, hrest⟩ := hmid
  rw [List.append_assoc, List.append_cancel_left_eq] at hrest
  obtain ⟨t₀, ht₀⟩ := hlooks.open?
  rw [handedOut_append, ← hrest, handedOut_append] at hroom
  rw [run_append, ← hrest, run_append] at hopen
  obtain ⟨hsound, hversion⟩ := sound_run hw before (by omega)
  have htaken := ne_none_of_open? ht₀
  obtain ⟨t₁, ht₁⟩ :=
    open_of_run (within_run hsound.within since) (taken_run htaken since) hopen
  rw [run_append]
  rcases touched_cases hsound (by omega) htaken ht₁ key with ⟨-, hsame⟩ | ⟨htouched, -⟩
  · exact hsame
  · -- the look itself touches nothing, so the touch is behind it
    have hall := (touchedByOthers_append _ n key since rest).2 (.inl htouched)
    rw [hrest] at hall
    rcases hall with ⟨hother, -⟩ | hlater
    · exact absurd hlooks.session? hother
    · rw [run_append] at hquiet
      exact absurd hlater hquiet

/-! ## Answers that differ -/

/-- A load answers with the record of the store, if no write is held back for it. -/
private theorem answer_of_load {type : EntityType α} {id : String}
    {answer : Except Error (Option (Row α))} {t : Transaction} (hopen : w.open? n = some t)
    (hnone : t.writes[(⟨type.kindName, id⟩ : RecordKey)]? = none)
    (hreg : w.store.isRegistered type.kindName = true)
    (h : w.event? (.act n (.load type id)) = some (.answered n (.load type id) answer)) :
    answer = Session.decodeFound type id (w.store.record? ⟨type.kindName, id⟩) := by
  obtain ⟨hs, ht⟩ := open?_eq_some_iff.1 hopen
  simp only [event?, hs, Operation.run, Session.load_active ht, hnone, hreg, if_true,
    Option.some.injEq, Event.answered.injEq, heq_eq_eq, true_and] at h
  exact h.symm

/-- A transaction that has not asked to write a record looks at the one in the store when it
    loads it, and is told what is there. -/
theorem looks_of_answer (hw : w.Within) (hfree : w.sessions n = none) {steps rest : List Step}
    {t : Transaction} (hopen : (w.run (steps ++ rest)).open? n = some t) {type : EntityType α}
    {id : String} {answer : Except Error (Option (Row α))}
    (hunchanged : ∀ step ∈ steps,
      step.session? = some n → step.change? ≠ some ⟨type.kindName, id⟩)
    (hreg : (w.run steps).store.isRegistered type.kindName = true)
    (h : (w.run steps).event? (.act n (.load type id)) =
      some (.answered n (.load type id) answer)) :
    (w.run steps).Looks n ⟨type.kindName, id⟩ (.act n (.load type id)) ∧
      answer = Session.decodeFound type id ((w.run steps).store.record? ⟨type.kindName, id⟩) := by
  have htaken : (w.run steps).sessions n ≠ none := fun hnone => by
    rw [event?, hnone] at h
    cases h
  rw [run_append] at hopen
  obtain ⟨t₀, ht₀⟩ := open_of_run (within_run hw steps) htaken hopen
  -- a write that is held back would have been asked for
  have hnone : t₀.writes[(⟨type.kindName, id⟩ : RecordKey)]? = none :=
    Classical.byContradiction fun hpending => by
      obtain ⟨step, hmem, hsession, hchange⟩ := change_of_pending hw hfree ht₀ hpending
      exact hunchanged step hmem hsession hchange
  exact ⟨⟨rfl, t₀, ht₀, rfl, hnone, hreg⟩, answer_of_load ht₀ hnone hreg h⟩

section

variable {type : EntityType α} {id : String} {steps before between after : List Step}
  {first second : Except Error (Option (Row α))} (hw : w.Sound) (hfree : w.sessions n = none)
  (hroom : w.store.version.toNat + w.handedOut steps < UInt64.size) {t : Transaction}
  (hopen : (w.run steps).open? n = some t)
  (hloads : w.LoadsTwice n type id steps before between after first second)
  (hne : first ≠ second)

include hw hfree hroom hopen hloads hne

/-- Others have touched a record behind the first look if two loads of it differ. -/
theorem touched_of_answers_ne :
    ∃ earlier look later, w.FirstLook n ⟨type.kindName, id⟩ steps earlier look later ∧
      (w.run (earlier ++ [look])).TouchedByOthers n ⟨type.kindName, id⟩ later := by
  obtain ⟨rfl, hreg, hunchanged, hfirst, hsecond⟩ := hloads
  -- the kind is still registered at the second load
  have hreg' : (w.run (before ++ .act n (.load type id) :: between)).store.isRegistered
      type.kindName = true := by
    rw [run_append]
    exact registered_run (within_run hw.within before) _ hreg
  have hsplit : before ++ .act n (.load type id) :: (between ++ .act n (.load type id) :: after) =
      (before ++ .act n (.load type id) :: between) ++ .act n (.load type id) :: after := by
    rw [List.append_assoc, List.cons_append]
  -- each load has looked at the record and answered what it was then
  obtain ⟨hlooks, rfl⟩ := looks_of_answer hw.within hfree hopen
    (fun step h => hunchanged step (List.mem_append_left _ h)) hreg hfirst
  obtain ⟨-, rfl⟩ := looks_of_answer hw.within hfree (hsplit ▸ hopen) hunchanged hreg' hsecond
  obtain ⟨earlier, look, later, hlook, hbehind⟩ := exists_firstLook_of_looks hlooks
  refine ⟨earlier, look, later, hlook, Classical.byContradiction fun hquiet => hne ?_⟩
  -- otherwise both loads have found what the first look found
  have hbefore := record?_of_quiet hw hroom hopen hlook hquiet hbehind (List.prefix_append _ _)
  have hbetween := record?_of_quiet hw hroom hopen hlook hquiet
    (hbehind.trans (List.prefix_append _ _)) ⟨_, hsplit.symm⟩
  rw [hbefore, hbetween]

/-- If two loads of a record differ, then the record is stale, unless it was absent at the
    first look and is absent again. -/
theorem stale_iff_of_answers_ne :
    ∃ earlier look later, w.FirstLook n ⟨type.kindName, id⟩ steps earlier look later ∧
      (w.Stale n ⟨type.kindName, id⟩ steps ↔
        ¬ ((w.run earlier).store.record? ⟨type.kindName, id⟩ = none ∧
          (w.run steps).store.record? ⟨type.kindName, id⟩ = none)) := by
  obtain ⟨earlier, look, later, hlook, htouched⟩ :=
    touched_of_answers_ne hw hfree hroom hopen hloads hne
  refine ⟨earlier, look, later, hlook, ?_⟩
  constructor
  · -- what is absent at both ends bears the version that was remembered
    rintro ⟨earlier', look', later', hlook', hstale⟩ ⟨hthen, hnow⟩
    obtain ⟨rfl, rfl, rfl⟩ := hlook.unique hlook'
    rw [hthen, hnow] at hstale
    cases hstale
  · intro hnot
    refine ⟨earlier, look, later, hlook, ?_⟩
    cases hthen : (w.run earlier).store.record? ⟨type.kindName, id⟩ with
    | some r => exact htouched
    | none =>
      -- the touches do not count for a record that was absent, only what they have left
      cases hnow : (w.run steps).store.record? ⟨type.kindName, id⟩ with
      | some r => rfl
      | none => exact absurd ⟨hthen, hnow⟩ hnot

end

/-! ## The commit -/

/-- Loads that a transaction repeats answer the same, or the commit conflicts.  The exception
    is a record that was absent when the transaction first looked at it and is absent at the
    commit: the loads in between may differ, and the record does not make the commit conflict. -/
theorem loads_twice_cases {type : EntityType α} {id : String}
    {steps before between after : List Step} {first second : Except Error (Option (Row α))}
    (hroom : init.handedOut steps < UInt64.size) {s : Session}
    (hs : (init.run steps).sessions n = some s) (hactive : s.isActive = true)
    (hloads : init.LoadsTwice n type id steps before between after first second) :
    first = second ∨
      ∃ earlier look later, init.FirstLook n ⟨type.kindName, id⟩ steps earlier look later ∧
        (init.Stale n ⟨type.kindName, id⟩ steps ↔
          ¬ ((init.run earlier).store.record? ⟨type.kindName, id⟩ = none ∧
            (init.run steps).store.record? ⟨type.kindName, id⟩ = none)) ∧
        (¬ ((init.run earlier).store.record? ⟨type.kindName, id⟩ = none ∧
            (init.run steps).store.record? ⟨type.kindName, id⟩ = none) →
          ∃ reason, (s.commit (init.run steps).store).result =
            .error (.transactionConflict reason)) := by
  by_cases hne : first = second
  · exact .inl hne
  -- loads that differ saw the store itself, so the first look decides
  obtain ⟨t, rfl, ht⟩ := Session.isActive_iff.1 hactive
  obtain ⟨earlier, look, later, hlook, hstale⟩ := stale_iff_of_answers_ne sound_init rfl
    (room_init hroom) (open?_eq_some_iff.2 ⟨hs, ht⟩) hloads hne
  exact .inr ⟨earlier, look, later, hlook, hstale, fun hnot =>
    conflict_of_stale sound_init rfl (room_init hroom) hs hactive (hstale.2 hnot)⟩

/-- A note that a transaction has loaded is saved again, and loaded once more. -/
def reloaded : List Step := crossing ++ [.act 1 (.load Note.type "a")]

/-- The note is loaded a second time, behind the change. -/
private theorem loadsTwice_reloaded :
    init.LoadsTwice 1 Note.type "a" reloaded (crossing.take 4) (crossing.drop 5) []
      (.ok (some (Note.row "a" 1 "one"))) (.ok (some (Note.row "a" 2 "two"))) where
  split := rfl
  registered := by decide +kernel
  unchanged := by
    simp only [crossing, List.take_succ_cons, List.take_zero, List.drop_succ_cons,
      List.drop_zero, List.cons_append, List.nil_append, List.forall_mem_cons]
    simp [Step.session?, Step.change?, Operation.change?]
  first_eq := rfl
  second_eq := rfl

/-- The two loads find two versions of the note, and the commit is refused. -/
theorem loads_twice_cases_reloaded :
    ∃ s, (init.run reloaded).sessions 1 = some s ∧ s.isActive = true ∧
      init.LoadsTwice 1 Note.type "a" reloaded (crossing.take 4) (crossing.drop 5) []
        (.ok (some (Note.row "a" 1 "one"))) (.ok (some (Note.row "a" 2 "two"))) ∧
      ∃ reason, (s.commit (init.run reloaded).store).result =
        .error (.transactionConflict reason) := by
  have hsome : ((init.run reloaded).sessions 1).isSome = true := by decide +kernel
  have hs : (init.run reloaded).sessions 1 = some (((init.run reloaded).sessions 1).get hsome) :=
    (Option.some_get hsome).symm
  have hactive : (((init.run reloaded).sessions 1).get hsome).isActive = true := rfl
  refine ⟨_, hs, hactive, loadsTwice_reloaded, ?_⟩
  rcases loads_twice_cases (by decide +kernel) hs hactive loadsTwice_reloaded with
    hsame | ⟨_, _, _, -, -, hconflict⟩
  · cases hsame
  · -- the note is there at the commit
    have hthere : (init.run reloaded).store.record? ⟨"Note", "a"⟩ ≠ none := by decide +kernel
    exact hconflict fun h => hthere h.2

/-- A note comes and goes between the first load of a transaction and its commit. -/
def recreated : List Step :=
  [.register Note.type.kind, .plain 0, .begin 1, .act 1 (.load Note.type "a"),
    .act 0 (.save Note.type (Note.of "a" "one")), .act 1 (.load Note.type "a"),
    .act 0 (.delete Note.type "a"), .act 1 (.save Note.type (Note.of "b" "copy of a: one"))]

/-- The commit succeeds although the loads have differed. -/
theorem loads_differ_recreated :
    ∃ s, (init.run recreated).sessions 1 = some s ∧ s.isActive = true ∧
      init.LoadsTwice 1 Note.type "a" recreated (recreated.take 3)
        [.act 0 (.save Note.type (Note.of "a" "one"))] (recreated.drop 6)
        (.ok none) (.ok (some (Note.row "a" 1 "one"))) ∧
      (s.commit (init.run recreated).store).result = .ok () := by
  have hsome : ((init.run recreated).sessions 1).isSome = true := by decide +kernel
  refine ⟨_, (Option.some_get hsome).symm, rfl, ⟨rfl, by decide +kernel, ?_, rfl, rfl⟩, rfl⟩
  simp only [recreated, List.take_succ_cons, List.take_zero, List.cons_append, List.nil_append,
    List.forall_mem_cons]
  simp [Step.session?, Step.change?, Operation.change?]

end World

end EntityStore
