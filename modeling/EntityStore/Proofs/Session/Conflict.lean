import EntityStore.Proofs.Session.Run
import Mathlib.Data.List.Induction

/-! # Which commits conflict

A transaction conflicts for one reason only: a record that it looked at is not what it was.
The store compares two numbers to find out.  Here the comparison is traced back to the run:
the number remembered is that of the first look, and the number in the store differs from it
exactly if the record was written in between, or came to be.

* `World.reads_history`     the versions remembered are those of the first looks
* `World.touched_cases`     a record is the same unless others touched it, and newer if they did
* `World.stale_iff`         a version remembered is out of date exactly if the record is stale
* `World.commit_conflict_iff`  a commit conflicts exactly if a record is stale -/

namespace EntityStore

namespace World

variable {w : World} {n : Nat} {key : RecordKey}

/-! ## Looks -/

/-- In this step the transaction of session `n` looks at a record in the store. -/
def Looks (w : World) (n : Nat) (key : RecordKey) : Step → Prop
  | .act m op => m = n ∧ ∃ t, w.open? n = some t ∧ op.Looks t w.store key
  | _ => False

/-- Session `n` does not look at a record in the course of some steps. -/
def Unseen (w : World) (n : Nat) (key : RecordKey) : List Step → Prop
  | [] => True
  | step :: steps => ¬ w.Looks n key step ∧ (w.step step).Unseen n key steps

/-- A run comes to the step in which session `n` looks at a record for the first time. -/
structure FirstLook (w : World) (n : Nat) (key : RecordKey) (steps before : List Step)
    (step : Step) (after : List Step) : Prop where
  split : steps = before ++ step :: after
  unseen : w.Unseen n key before
  looks : (w.run before).Looks n key step

/-- A session other than `n` writes or deletes a record in the course of some steps, by a
    plain operation or by a commit. -/
def TouchedByOthers (w : World) (n : Nat) (key : RecordKey) : List Step → Prop
  | [] => False
  | step :: steps =>
    (step.session? ≠ some n ∧ key ∈ w.writes step) ∨ (w.step step).TouchedByOthers n key steps

/-- Behind a run, a record is not what session `n` took it for: there was one at its first
    look, which others have touched since, or there was none and now there is. -/
def Stale (w : World) (n : Nat) (key : RecordKey) (steps : List Step) : Prop :=
  ∃ before step after, w.FirstLook n key steps before step after ∧
    if ((w.run before).store.record? key).isSome = true then
      (w.run (before ++ [step])).TouchedByOthers n key after
    else ((w.run steps).store.record? key).isSome = true

/-- A record is unseen in two runs if it is unseen in each of them. -/
theorem unseen_append (w : World) (n : Nat) (key : RecordKey) (a b : List Step) :
    w.Unseen n key (a ++ b) ↔ w.Unseen n key a ∧ (w.run a).Unseen n key b := by
  induction a generalizing w with
  | nil => exact ⟨fun h => ⟨trivial, h⟩, fun h => h.2⟩
  | cons step a ih => simp only [List.cons_append, Unseen, ih, run_cons, and_assoc]

/-- Others touch a record in two runs if they touch it in one of them. -/
theorem touchedByOthers_append (w : World) (n : Nat) (key : RecordKey) (a b : List Step) :
    w.TouchedByOthers n key (a ++ b) ↔
      w.TouchedByOthers n key a ∨ (w.run a).TouchedByOthers n key b := by
  induction a generalizing w with
  | nil => simp only [List.nil_append, TouchedByOthers, false_or, run_nil]
  | cons step a ih => simp only [List.cons_append, TouchedByOthers, ih, run_cons, or_assoc]

/-- Only an open transaction looks. -/
theorem Looks.open? {step : Step} (h : w.Looks n key step) : ∃ t, w.open? n = some t := by
  cases step with
  | act m op =>
    obtain ⟨-, t, ht, -⟩ := h
    exact ⟨t, ht⟩
  | _ => cases h

/-- A look is a step of the session that looks. -/
theorem Looks.session? {step : Step} (h : w.Looks n key step) : step.session? = some n := by
  cases step with
  | act m op => exact congrArg some h.1
  | _ => cases h

/-- A number with an open transaction is taken. -/
theorem ne_none_of_open? {t : Transaction} (h : w.open? n = some t) :
    w.sessions n ≠ none := by
  rw [(open?_eq_some_iff.1 h).1]
  nofun

/-- A number that is taken stays taken. -/
theorem taken_run (h : w.sessions n ≠ none) (steps : List Step) :
    (w.run steps).sessions n ≠ none := by
  induction steps generalizing w with
  | nil => exact h
  | cons step steps ih => exact ih (taken_step h step)

/-- A session that has not been opened has not looked. -/
theorem unseen_of_free {steps : List Step} (h : (w.run steps).sessions n = none) :
    w.Unseen n key steps := by
  induction steps generalizing w with
  | nil => trivial
  | cons step steps ih =>
    refine ⟨fun hlooks => ?_, ih h⟩
    obtain ⟨t, ht⟩ := hlooks.open?
    exact taken_run (taken_step (ne_none_of_open? ht) step) steps h

/-- There is only one first look. -/
theorem FirstLook.unique {steps before before' after after' : List Step} {step step' : Step}
    (h : w.FirstLook n key steps before step after)
    (h' : w.FirstLook n key steps before' step' after') :
    before = before' ∧ step = step' ∧ after = after' := by
  -- a look that comes first in the one cut lies behind the first look in no other
  induction before generalizing w steps before' with
  | nil =>
    cases before' with
    | nil =>
      obtain ⟨rfl, rfl⟩ := List.cons.inj (h.split.symm.trans h'.split)
      exact ⟨rfl, rfl, rfl⟩
    | cons first before' =>
      obtain ⟨rfl, -⟩ := List.cons.inj (h.split.symm.trans h'.split)
      exact absurd h.looks h'.unseen.1
  | cons first before ih =>
    cases before' with
    | nil =>
      obtain ⟨rfl, -⟩ := List.cons.inj (h.split.symm.trans h'.split)
      exact absurd h'.looks h.unseen.1
    | cons first' before' =>
      -- both cuts start with the same step, so they agree on the rest
      obtain ⟨rfl, hrest⟩ := List.cons.inj (h.split.symm.trans h'.split)
      obtain ⟨rfl, rfl, rfl⟩ := ih ⟨rfl, h.unseen.2, h.looks⟩ ⟨hrest, h'.unseen.2, h'.looks⟩
      exact ⟨rfl, rfl, rfl⟩

/-- A session that has looked at a record has done so for a first time. -/
theorem exists_firstLook {steps : List Step} (h : ¬ w.Unseen n key steps) :
    ∃ before step after, w.FirstLook n key steps before step after := by
  induction steps generalizing w with
  | nil => exact absurd trivial h
  | cons step steps ih =>
    by_cases hlooks : w.Looks n key step
    · exact ⟨[], step, steps, rfl, trivial, hlooks⟩
    · obtain ⟨before, look, after, rfl, hunseen, hlook⟩ := ih fun hlater => h ⟨hlooks, hlater⟩
      exact ⟨step :: before, look, after, rfl, ⟨hlooks, hunseen⟩, hlook⟩

/-- A look stays the first one when a step is added. -/
theorem FirstLook.concat {steps before after : List Step} {step : Step}
    (h : w.FirstLook n key steps before step after) (last : Step) :
    w.FirstLook n key (steps ++ [last]) before step (after ++ [last]) := by
  obtain ⟨rfl, hunseen, hlooks⟩ := h
  exact ⟨by simp, hunseen, hlooks⟩

/-- A transaction remembers the versions of its first looks, and no others. -/
theorem reads_history (hw : w.Within) (hfree : w.sessions n = none) {steps : List Step}
    {t : Transaction} (hopen : (w.run steps).open? n = some t) (key : RecordKey) :
    match t.reads[key]? with
    | none => w.Unseen n key steps
    | some v => ∃ before step after, w.FirstLook n key steps before step after ∧
        v = Record.seenVersion ((w.run before).store.record? key) := by
  -- along the steps from the last one back: what a transaction remembers shows in its last state
  induction steps using List.reverseRecOn generalizing t with
  | nil => exact absurd hfree (ne_none_of_open? hopen)
  | append_singleton steps last ih =>
    rw [run_append] at hopen
    rcases open?_step (within_run hw steps) hopen with
      ⟨rfl, hnone, hreads, -⟩ | ⟨hsame, hother⟩ | ⟨t₀, β, op, ht₀, rfl, -, rfl⟩
    · -- the transaction begins, and remembers nothing yet
      rw [hreads, Std.ExtTreeMap.getElem?_empty]
      exact (unseen_append ..).2 ⟨unseen_of_free hnone, nofun, trivial⟩
    · -- another session acts
      have hnot : ¬ (w.run steps).Looks n key last := fun h => hother h.session?
      have hearlier := ih hsame
      cases hseen : t.reads[key]? with
      | none =>
        rw [hseen] at hearlier
        exact (unseen_append ..).2 ⟨hearlier, hnot, trivial⟩
      | some v =>
        rw [hseen] at hearlier
        obtain ⟨before, step, after, hlook, hv⟩ := hearlier
        exact ⟨before, step, _, hlook.concat last, hv⟩
    · -- the transaction makes an operation, which only adds to what it remembers
      have hearlier := ih ht₀
      rw [op.getElem?_reads_advance]
      cases hseen : t₀.reads[key]? with
      | some v =>
        rw [hseen] at hearlier
        obtain ⟨before, step, after, hlook, hv⟩ := hearlier
        exact ⟨before, step, _, hlook.concat _, hv⟩
      | none =>
        rw [hseen] at hearlier
        rw [Option.none_or]
        by_cases hlooks : op.Looks t₀ (w.run steps).store key
        · rw [if_pos hlooks]
          exact ⟨steps, _, [], ⟨rfl, hearlier, rfl, t₀, ht₀, hlooks⟩, rfl⟩
        · rw [if_neg hlooks]
          refine (unseen_append ..).2 ⟨hearlier, ?_, trivial⟩
          rintro ⟨-, t₁, ht₁, hlooks₁⟩
          obtain rfl := Option.some.inj (ht₀.symm.trans ht₁)
          exact hlooks hlooks₁

/-! ## Changes since -/

/-- The transaction of a session that stays open writes nothing to the store. -/
theorem writes_of_open (hw : w.Within) {step : Step} {t : Transaction}
    (htaken : w.sessions n ≠ none) (hopen : (w.step step).open? n = some t)
    (hsession : step.session? = some n) : w.writes step = ∅ := by
  rcases open?_step hw hopen with ⟨-, hfree, -⟩ | ⟨-, hother⟩ | ⟨t₀, β, op, ht₀, rfl, hop, -⟩
  · exact absurd hfree htaken
  · exact absurd hsession hother
  · simp only [writes, (open?_eq_some_iff.1 ht₀).1]
    exact op.writes_active hop t₀ w.store

/-- Behind a run in which session `n` keeps its transaction open, a record is what it was
    unless others touched it, and newer than all before if they did. -/
theorem touched_cases (hw : w.Sound) {steps : List Step}
    (hroom : w.store.version.toNat + w.handedOut steps < UInt64.size)
    (htaken : w.sessions n ≠ none) {t : Transaction} (hopen : (w.run steps).open? n = some t)
    (key : RecordKey) :
    (¬ w.TouchedByOthers n key steps ∧
        (w.run steps).store.record? key = w.store.record? key) ∨
      (w.TouchedByOthers n key steps ∧ ∀ r, (w.run steps).store.record? key = some r →
        w.store.version.toNat < r.version.toNat) := by
  -- along the steps; the versions of records only grow, so a later touch decides
  induction steps generalizing w with
  | nil => exact .inl ⟨nofun, rfl⟩
  | cons step steps ih =>
    rw [handedOut] at hroom
    have hstep : w.store.version.toNat + w.taken step < UInt64.size := by omega
    have hversion := version_step_toNat hw.within step hstep
    have hlater := ih (sound_step hw step hstep) (by omega) (taken_step htaken step) hopen
    have hmid := record?_step_cases hw.within hstep key
    rw [run_cons]
    rcases hlater with ⟨hquiet, hsame⟩ | ⟨htouched, hnewer⟩
    · -- nobody touched the record later on, so it is what the first step has left
      rcases hmid with ⟨hnot, hmid⟩ | ⟨hwritten, hmid⟩
      · refine .inl ⟨?_, hsame.trans hmid⟩
        rintro (⟨-, hmem⟩ | h)
        · exact hnot hmem
        · exact hquiet h
      · refine .inr ⟨.inl ⟨fun hsession => ?_, hwritten⟩, fun r hr => ?_⟩
        · -- session `n` itself writes nothing, so the write is not its own
          obtain ⟨t', ht'⟩ :=
            open_of_run (within_step hw.within step) (taken_step htaken step) hopen
          rw [writes_of_open hw.within htaken ht' hsession] at hwritten
          exact Std.ExtTreeMap.not_mem_empty hwritten
        · have := hmid r (hsame ▸ hr)
          omega
    · -- somebody touched the record later on
      refine .inr ⟨.inr htouched, fun r hr => ?_⟩
      have := hnewer r hr
      omega

section

variable {steps before after : List Step} {step : Step} (hw : w.Sound)
  (hroom : w.store.version.toNat + w.handedOut steps < UInt64.size) {t : Transaction}
  (hopen : (w.run steps).open? n = some t) (hlook : w.FirstLook n key steps before step after)

include hw hroom hopen hlook

/-- What has become of a record since the first look. -/
private theorem looked_cases :
    (¬ (w.run (before ++ [step])).TouchedByOthers n key after ∧
        (w.run steps).store.record? key = (w.run before).store.record? key) ∨
      ((w.run (before ++ [step])).TouchedByOthers n key after ∧
        ∀ r, (w.run steps).store.record? key = some r →
          (w.run before).store.version.toNat < r.version.toNat) := by
  obtain ⟨rfl, -, hlooks⟩ := hlook
  obtain ⟨t₀, ht₀⟩ := hlooks.open?
  rw [handedOut_append] at hroom
  obtain ⟨hsound, hversion⟩ := sound_run hw before (by omega)
  rw [run_append] at hopen
  have hcases := touched_cases hsound (by omega) (ne_none_of_open? ht₀) hopen key
  -- the look is a step of session `n` itself, so others can touch the record behind it only
  have htouched : (w.run before).TouchedByOthers n key (step :: after) ↔
      (w.run (before ++ [step])).TouchedByOthers n key after := by
    rw [run_append, TouchedByOthers, hlooks.session?]
    simp only [ne_eq, not_true_eq_false, false_and, false_or]
    rfl
  rwa [htouched, ← run_append] at hcases

/-- A record is only stale if others touched it. -/
theorem not_stale_of_quiet (hquiet : ¬ (w.run (before ++ [step])).TouchedByOthers n key after) :
    ¬ if ((w.run before).store.record? key).isSome = true then
        (w.run (before ++ [step])).TouchedByOthers n key after
      else ((w.run steps).store.record? key).isSome = true := by
  rcases looked_cases hw hroom hopen hlook with ⟨-, hsame⟩ | ⟨htouched, -⟩
  · rw [hsame]
    split
    · exact hquiet
    · assumption
  · exact absurd htouched hquiet

/-- The version of a record differs from the one seen at the first look exactly if the record
    is stale. -/
theorem seen_ne_iff :
    Record.seenVersion ((w.run steps).store.record? key) ≠
        Record.seenVersion ((w.run before).store.record? key) ↔
      if ((w.run before).store.record? key).isSome = true then
        (w.run (before ++ [step])).TouchedByOthers n key after
      else ((w.run steps).store.record? key).isSome = true := by
  have hcases := looked_cases hw hroom hopen hlook
  have hnow := (sound_run hw _ hroom).1
  have hthen : (w.run before).Sound := by
    rw [hlook.split, handedOut_append] at hroom
    exact (sound_run hw _ (by omega)).1
  cases h₀ : (w.run before).store.record? key with
  | none =>
    -- an absent record was seen as version 0, which no record has
    rw [show Record.seenVersion none = 0 from rfl, Ne, hnow.seenVersion_eq_zero_iff]
    simp only [Option.isSome_none, Bool.false_eq_true, if_false, Option.isSome_iff_ne_none, Ne]
  | some r₀ =>
    simp only [Option.isSome_some, if_true]
    rcases hcases with ⟨hquiet, hsame⟩ | ⟨htouched, hnewer⟩
    · -- no one else has touched the record, so it is the one that was seen
      rw [hsame, h₀]
      exact ⟨fun h => absurd rfl h, fun h => absurd h hquiet⟩
    · refine ⟨fun _ => htouched, fun _ => ?_⟩
      cases h₁ : (w.run steps).store.record? key with
      | none =>
        -- the record is gone, and one that was there had no version 0
        intro hzero
        rw [← h₀] at hzero
        rw [(hthen.seenVersion_eq_zero_iff key).1 hzero.symm] at h₀
        cases h₀
      | some r =>
        intro heq
        -- the version was ahead of the store when the record was seen
        have hlt := hnewer r h₁
        have hle := hthen.le_version key r₀ h₀
        rw [Record.seenVersion, Record.seenVersion] at heq
        rw [heq] at hlt
        omega

end

/-! ## The commit -/

/-- A record is stale exactly if the version that is remembered of it is out of date. -/
theorem stale_iff (hw : w.Sound) (hfree : w.sessions n = none) {steps : List Step}
    (hroom : w.store.version.toNat + w.handedOut steps < UInt64.size) {t : Transaction}
    (hopen : (w.run steps).open? n = some t) (key : RecordKey) :
    w.Stale n key steps ↔ ∃ seen, t.reads[key]? = some seen ∧
      Record.seenVersion ((w.run steps).store.record? key) ≠ seen := by
  have hhistory := reads_history hw.within hfree hopen key
  cases hseen : t.reads[key]? with
  | none =>
    rw [hseen] at hhistory
    constructor
    · -- nothing is remembered of a record that was never looked at
      rintro ⟨before, step, after, ⟨rfl, -, hlooks⟩, -⟩
      exact absurd hlooks ((unseen_append ..).1 hhistory).2.1
    · rintro ⟨seen, hnone, -⟩
      cases hnone
  | some v =>
    rw [hseen] at hhistory
    obtain ⟨before, step, after, hlook, rfl⟩ := hhistory
    constructor
    · rintro ⟨before', step', after', hlook', h⟩
      -- the look that makes the record stale is the one whose version is remembered
      obtain ⟨rfl, rfl, rfl⟩ := hlook.unique hlook'
      exact ⟨_, rfl, (seen_ne_iff hw hroom hopen hlook).2 h⟩
    · rintro ⟨seen, heq, hne⟩
      obtain rfl := Option.some.inj heq
      exact ⟨before, step, after, hlook, (seen_ne_iff hw hroom hopen hlook).1 hne⟩

/-- A record that a transaction has not looked at is not stale. -/
theorem not_stale_of_unseen {key : RecordKey} {steps : List Step}
    (h : w.Unseen n key steps) : ¬ w.Stale n key steps := by
  rintro ⟨before, look, after, ⟨rfl, -, hlooks⟩, -⟩
  exact ((unseen_append ..).1 h).2.1 hlooks

/-- A stale record makes the commit conflict. -/
theorem conflict_of_stale (hw : w.Sound) (hfree : w.sessions n = none) {steps : List Step}
    (hroom : w.store.version.toNat + w.handedOut steps < UInt64.size) {s : Session}
    (hs : (w.run steps).sessions n = some s) (hactive : s.isActive = true)
    (hstale : w.Stale n key steps) :
    ∃ reason, (s.commit (w.run steps).store).result = .error (.transactionConflict reason) := by
  obtain ⟨t, rfl, ht⟩ := Session.isActive_iff.1 hactive
  have hopen : (w.run steps).open? n = some t := open?_eq_some_iff.2 ⟨hs, ht⟩
  -- the check at the commit meets the version that is out of date
  obtain ⟨seen, hseen, hold⟩ := (stale_iff hw hfree hroom hopen key).1 hstale
  obtain ⟨reason, hreason⟩ :=
    Session.commit_of_stale ht (within_run hw.within steps n _ hs t rfl) hseen hold
  exact ⟨reason, by rw [hreason]⟩

/-- A commit conflicts exactly if a record is stale that its transaction has looked at, and
    otherwise it succeeds.  So does that of a transaction that has looked at nothing, or only
    at records that others left alone. -/
theorem commit_conflict_iff {steps : List Step} (hroom : init.handedOut steps < UInt64.size)
    {n : Nat} {s : Session} (hs : (init.run steps).sessions n = some s)
    (hactive : s.isActive = true) :
    ((∃ reason, (s.commit (init.run steps).store).result = .error (.transactionConflict reason)) ↔
        ∃ key, init.Stale n key steps) ∧
      ((¬ ∃ key, init.Stale n key steps) →
        (s.commit (init.run steps).store).result = .ok ()) ∧
      ((∀ key, init.Unseen n key steps) → (s.commit (init.run steps).store).result = .ok ()) ∧
      ((∀ key before step after, init.FirstLook n key steps before step after →
          ¬ (init.run (before ++ [step])).TouchedByOthers n key after) →
        (s.commit (init.run steps).store).result = .ok ()) := by
  have hroom' : init.store.version.toNat + init.handedOut steps < UInt64.size := by
    rw [show init.store.version.toNat = 0 from rfl, Nat.zero_add]
    exact hroom
  obtain ⟨t, rfl, ht⟩ := Session.isActive_iff.1 hactive
  have hopen : (init.run steps).open? n = some t := open?_eq_some_iff.2 ⟨hs, ht⟩
  have hwithin : t.Within (init.run steps).store :=
    within_run (within_on _) steps n _ hs t rfl
  have hstale := stale_iff sound_init rfl hroom' hopen
  -- the check at the commit passes if no record is stale
  have hcommit : (¬ ∃ key, init.Stale n key steps) →
      ((Session.mk (some t)).commit (init.run steps).store).result = .ok () := by
    intro hnot
    rw [Session.commit_of_fresh ht hwithin fun key seen hseen => ?_]
    exact Decidable.byContradiction fun hne => hnot ⟨key, (hstale key).2 ⟨seen, hseen, hne⟩⟩
  refine ⟨⟨?_, ?_⟩, hcommit, fun hunseen => hcommit ?_, fun hquiet => hcommit ?_⟩
  · rintro ⟨reason, hreason⟩
    apply Classical.byContradiction
    intro hnot
    rw [hcommit hnot] at hreason
    cases hreason
  · rintro ⟨key, hkey⟩
    -- the check meets a version that is out of date
    obtain ⟨seen, hseen, hne⟩ := (hstale key).1 hkey
    obtain ⟨reason, hreason⟩ := Session.commit_of_stale ht hwithin hseen hne
    exact ⟨reason, by rw [hreason]⟩
  · -- what was never looked at cannot be stale, and neither can what no one has touched
    rintro ⟨key, before, step, after, ⟨rfl, -, hlooks⟩, -⟩
    exact ((unseen_append ..).1 (hunseen key)).2.1 hlooks
  · rintro ⟨key, before, step, after, hlook, h⟩
    exact not_stale_of_quiet sound_init hroom' hopen hlook (hquiet key before step after hlook) h

/-- A transaction loads a note, which is saved again before it commits. -/
def crossing : List Step :=
  [.register Note.type.kind, .plain 0, .act 0 (.save Note.type (Note.of "a" "one")), .begin 1,
    .act 1 (.load Note.type "a"), .act 0 (.save Note.type (Note.of "a" "two"))]

/-- A note is changed behind the first look at it, so the commit is refused. -/
theorem commit_conflict_iff_crossing :
    ∃ s, (init.run crossing).sessions 1 = some s ∧ s.isActive = true ∧
      (s.commit (init.run crossing).store).result =
        .error (.transactionConflict "Note:a changed since read (read version 1, now 2)") ∧
      ∃ key, init.Stale 1 key crossing := by
  have hsome : ((init.run crossing).sessions 1).isSome = true := by decide +kernel
  have hs : (init.run crossing).sessions 1 = some (((init.run crossing).sessions 1).get hsome) :=
    (Option.some_get hsome).symm
  have hactive : (((init.run crossing).sessions 1).get hsome).isActive = true := rfl
  -- what the commit answers can be computed
  have hconflict :
      ((((init.run crossing).sessions 1).get hsome).commit (init.run crossing).store).result =
        .error (.transactionConflict "Note:a changed since read (read version 1, now 2)") := rfl
  exact ⟨_, hs, hactive, hconflict,
    (commit_conflict_iff (by decide +kernel) hs hactive).1.1 ⟨_, hconflict⟩⟩

end World

end EntityStore
