import EntityStore.Proofs.Session.Rows
import EntityStore.Proofs.Session.Run
import Mathlib.Data.List.Induction

/-! # Versions

Every write of a body outside of transactions takes a version of its own, and a commit takes
one for all its writes; a delete takes none.  As long as versions are left, none is taken
twice, so the version of a record tells which step of a run wrote it.

* `World.stored`             the versions that come to stand at an address, one after the other
* `World.pairwise_stored`    they increase, also across deletes
* `World.CommitWrote`        a record that was written by the commit of a transaction
* `World.commits_of_shared`  two records of one version were written by one commit
* `Session.TellsVersion`     what the version of a row says
* `World.versions_run`       versions in any state that a run reaches -/

namespace EntityStore

namespace World

variable {w : World}

/-! ## The versions at an address -/

/-- The version that comes to stand at an address if a step writes a body there. -/
def stores? (w : World) (key : RecordKey) (step : Step) : Option UInt64 :=
  match (w.writes step)[key]? with
  | some (some _) => ((w.step step).store.record? key).map Record.version
  | _ => none

/-- The versions that come to stand at an address in the course of a run. -/
def stored (w : World) (key : RecordKey) : List Step → List UInt64
  | [] => []
  | step :: steps => (w.stores? key step).toList ++ (w.step step).stored key steps

/-- A body is written under the version that is taken for it. -/
theorem stores?_eq_some (hw : w.Within) {key : RecordKey} {step : Step} {v : UInt64}
    (hroom : w.store.version.toNat + w.taken step < UInt64.size)
    (h : w.stores? key step = some v) :
    v = (w.step step).store.version ∧ v.toNat = w.store.version.toNat + 1 := by
  unfold stores? at h
  split at h
  · next body hbody =>
    have hrecord := record?_step hw step key
    rw [hbody] at hrecord
    rw [hrecord] at h
    obtain rfl := Option.some.inj h
    -- the key is one of those that the step writes, so its version is new
    have hmem : key ∈ w.writes step :=
      Std.ExtTreeMap.mem_iff_isSome_getElem?.2 (by rw [hbody]; rfl)
    rcases record?_step_cases hw hroom key with ⟨hnot, -⟩ | ⟨-, hnew⟩
    · exact absurd hmem hnot
    · exact ⟨rfl, (hnew _ hrecord).1⟩
  · cases h

/-- Whatever is written to an address in the course of a run is ahead of the first store. -/
theorem lt_of_mem_stored (hw : w.Within) {key : RecordKey} {steps : List Step} {v : UInt64}
    (hroom : w.store.version.toNat + w.handedOut steps < UInt64.size)
    (h : v ∈ w.stored key steps) : w.store.version.toNat < v.toNat := by
  induction steps generalizing w with
  | nil => cases h
  | cons step steps ih =>
    rw [handedOut] at hroom
    have hversion := version_step_toNat hw step (by omega)
    -- the version is that of the first step, or that of a later one
    rw [stored, List.mem_append, Option.mem_toList] at h
    rcases h with hfirst | hrest
    · have := (stores?_eq_some hw (by omega) hfirst).2
      omega
    · have := ih (within_step hw step) (by omega) hrest
      omega

/-- The versions that come to stand at an address increase. -/
theorem pairwise_stored (hw : w.Within) (key : RecordKey) {steps : List Step}
    (hroom : w.store.version.toNat + w.handedOut steps < UInt64.size) :
    (w.stored key steps).Pairwise (· < ·) := by
  -- along the steps; all that is written later lies ahead of the store
  induction steps generalizing w with
  | nil => exact .nil
  | cons step steps ih =>
    rw [handedOut] at hroom
    have hversion := version_step_toNat hw step (by omega)
    have hrest := ih (within_step hw step) (by omega)
    rw [stored, List.pairwise_append]
    refine ⟨?_, hrest, fun v hv v' hv' => ?_⟩
    · cases w.stores? key step with
      | none => exact .nil
      | some v => exact List.pairwise_singleton _ v
    · -- later steps write ahead of the store that this one leaves
      have hlt := lt_of_mem_stored (within_step hw step) (by omega) hv'
      obtain ⟨rfl, -⟩ := stores?_eq_some hw (by omega) (Option.mem_toList.1 hv)
      exact UInt64.lt_iff_toNat_lt.2 hlt

/-- A record that is there at the end has the last version that came to stand at its address,
    if any did. -/
theorem getLast?_stored (hw : w.Within) {key : RecordKey} {steps : List Step} {r : Record}
    (h : (w.run steps).store.record? key = some r) :
    (w.stored key steps = [] ∧ w.store.record? key = some r) ∨
      (w.stored key steps).getLast? = some r.version := by
  -- along the steps; the last one that writes the record decides
  induction steps generalizing w with
  | nil => exact .inl ⟨rfl, h⟩
  | cons step steps ih =>
    rw [stored]
    rcases ih (within_step hw step) h with ⟨hnone, hrecord⟩ | hlast
    · -- no later step wrote the record
      rw [hnone, List.append_nil, stores?, hrecord]
      have hstep := record?_step hw step key
      rw [hrecord] at hstep
      cases hbody : (w.writes step)[key]? with
      | none =>
        rw [hbody] at hstep
        exact .inl ⟨rfl, hstep.symm⟩
      | some body =>
        rw [hbody] at hstep
        cases body with
        | none => cases hstep
        | some body => exact .inr rfl
    · rw [List.getLast?_append, hlast]
      exact .inr rfl

/-! ## Two records of one version -/

/-- A step that writes to two addresses is the commit of a transaction that held both writes
    back, and succeeds. -/
theorem commit_of_two_writes {step : Step} {key key' : RecordKey} {body body' : Option Json}
    (hne : key ≠ key') (h : (w.writes step)[key]? = some body)
    (h' : (w.writes step)[key']? = some body') :
    ∃ n t, step = .act n (.finish .commit) ∧ w.open? n = some t ∧
      ((Session.mk (some t)).commit w.store).result = .ok () ∧ t.writes[key]? = some body ∧
      t.writes[key']? = some body' := by
  rcases writes_cases h with ⟨n, β, op, rfl, hs, hchange⟩ | ⟨n, t, rfl, hopen, hresult, hheld⟩
  · -- outside of transactions a step makes one write
    rcases writes_cases h' with ⟨_, _, _, ⟨⟩, -, hchange'⟩ | ⟨_, t, ⟨⟩, hopen, -⟩
    · cases hchange.symm.trans hchange'
      exact absurd rfl hne
    · cases hs.symm.trans (open?_eq_some_iff.1 hopen).1
  · rcases writes_cases h' with ⟨_, _, _, ⟨⟩, hs, -⟩ | ⟨_, t', ⟨⟩, hopen', -, hheld'⟩
    · cases hs.symm.trans (open?_eq_some_iff.1 hopen).1
    · obtain rfl := Option.some.inj (hopen.symm.trans hopen')
      exact ⟨n, t, rfl, hopen, hresult, hheld, hheld'⟩

/-- Behind some steps, the commit of a transaction that is open there succeeds, and writes a
    record. -/
structure CommitWrote (w : World) (before : List Step) (n : Nat) (t : Transaction)
    (key : RecordKey) (r : Record) : Prop where
  open?_eq : (w.run before).open? n = some t
  succeeds : ((Session.mk (some t)).commit (w.run before).store).result = .ok ()
  held : t.writes[key]? = some (some r.body)
  record?_eq : (w.run (before ++ [.act n (.finish .commit)])).store.record? key = some r

/-- The body of a record that a step has written is the one that was to be written. -/
theorem body_of_step (hw : w.Within) {step : Step} {key : RecordKey} {r : Record}
    (hmem : key ∈ w.writes step) (h : (w.step step).store.record? key = some r) :
    (w.writes step)[key]? = some (some r.body) := by
  obtain ⟨body, hbody⟩ := Option.isSome_iff_exists.1 (Std.ExtTreeMap.mem_iff_isSome_getElem?.1 hmem)
  rw [record?_step hw, hbody] at h
  obtain ⟨json, rfl, rfl⟩ := Option.map_eq_some_iff.1 h
  exact hbody

/-- Two records of one version were written by the commit of one transaction. -/
theorem commits_of_shared {steps : List Step} (hroom : init.handedOut steps < UInt64.size)
    {key key' : RecordKey} {r r' : Record} (hne : key ≠ key')
    (hr : (init.run steps).store.record? key = some r)
    (hr' : (init.run steps).store.record? key' = some r') (hversion : r.version = r'.version) :
    ∃ before n t after, steps = before ++ .act n (.finish .commit) :: after ∧
      init.CommitWrote before n t key r ∧ init.CommitWrote before n t key' r' := by
  induction steps using List.reverseRecOn with
  | nil => cases (record?_empty key).symm.trans hr
  | append_singleton steps step ih =>
    have hlast := hr
    have hlast' := hr'
    rw [run_append, run_cons, run_nil] at hr hr'
    have hsplit := handedOut_append init steps [step]
    rw [handedOut, handedOut, Nat.add_zero] at hsplit
    obtain ⟨hsound, hcount⟩ := sound_run sound_init steps (room_init (by omega))
    have hstart : init.store.version.toNat = 0 := rfl
    -- the last step has written both records, one of them, or none
    have hcases := @record?_step_cases _ hsound.within step (by omega)
    rcases hcases key with ⟨-, hsame⟩ | ⟨hmem, hnew⟩
    · rcases hcases key' with ⟨-, hsame'⟩ | ⟨-, hnew'⟩
      · -- both records were there before
        obtain ⟨before, n, t, after, rfl, hwrote⟩ :=
          ih (by omega) (hsame ▸ hr) (hsame' ▸ hr')
        exact ⟨before, n, t, after ++ [step], by simp, hwrote⟩
      · -- the version of the second one is new
        have := hsound.le_version key r (hsame ▸ hr)
        have := (hnew' r' hr').1
        rw [hversion] at *
        omega
    · rcases hcases key' with ⟨-, hsame'⟩ | ⟨hmem', -⟩
      · -- the version of the first one is new
        have := hsound.le_version key' r' (hsame' ▸ hr')
        have := (hnew r hr).1
        rw [hversion] at *
        omega
      · -- the step has written both
        obtain ⟨n, t, rfl, hopen, hresult, hheld, hheld'⟩ :=
          commit_of_two_writes hne (body_of_step hsound.within hmem hr)
            (body_of_step hsound.within hmem' hr')
        exact ⟨steps, n, t, [], rfl, ⟨hopen, hresult, hheld, hlast⟩,
          ⟨hopen, hresult, hheld', hlast'⟩⟩

end World

/-! ## The versions of rows -/

namespace Session

variable {α : Type}

/-- A session reads a row, by its id or in a query. -/
def Reads (s : Session) (store : Store) (type : EntityType α) (row : Row α) : Prop :=
  (∃ id, (s.load store type id).result = .ok (some row)) ∨
    ∃ start q, s.query store type start = .ok q ∧ row ∈ q.rows

/-- What the version of a row says.  It is 0 if the session itself holds the entity back, and
    otherwise the version of the record that the entity is read from. -/
structure TellsVersion (s : Session) (store : Store) (type : EntityType α) (row : Row α) :
    Prop where
  zero_iff : row.version = 0 ↔
    ∃ body, s.held? ⟨type.kindName, row.id⟩ = some (some body) ∧ type.decode body = .ok row.entity
  record : row.version ≠ 0 → s.held? ⟨type.kindName, row.id⟩ = none ∧
    ∃ r, store.record? ⟨type.kindName, row.id⟩ = some r ∧ RowOf type (row.id, r) row

/-- A row that is read is what its session sees under the id of the row. -/
theorem Reads.visible {s : Session} {store : Store} {type : EntityType α} {row : Row α}
    (h : s.Reads store type row) :
    ∃ r, s.visible? store ⟨type.kindName, row.id⟩ = some r ∧ RowOf type (row.id, r) row := by
  rcases h with ⟨id, hload⟩ | ⟨start, q, hquery, hrow⟩
  · obtain ⟨r, hr, hof⟩ := visible_of_load hload
    obtain rfl : row.id = id := hof.id_eq
    exact ⟨r, hr, hof⟩
  · exact visible_of_query hquery hrow

/-- As long as no record has version 0, the version of a row tells where it is from. -/
theorem Reads.tellsVersion {w : World} (hw : w.Sound) {s : Session} {type : EntityType α}
    {row : Row α} (h : s.Reads w.store type row) : s.TellsVersion w.store type row := by
  obtain ⟨r, hr, hof⟩ := h.visible
  rw [visible?] at hr
  split at hr
  · -- the row is held back
    next held hheld =>
    obtain ⟨body, rfl, rfl⟩ := Option.map_eq_some_iff.1 hr
    have hzero : row.version = 0 := hof.version_eq
    exact ⟨⟨fun _ => ⟨body, hheld, hof.decode_eq⟩, fun _ => hzero⟩, fun hne => absurd hzero hne⟩
  · next hnone =>
    -- the row is a record of the store, whose version is not 0
    have hpos := hw.positive _ r hr
    have hne : row.version ≠ 0 := by
      intro hzero
      rw [← hof.version_eq, hzero] at hpos
      exact absurd hpos (by decide)
    refine ⟨⟨fun hzero => absurd hzero hne, ?_⟩, fun _ => ⟨hnone, r, hr, hof⟩⟩
    rintro ⟨body, hheld, -⟩
    cases hnone.symm.trans hheld

end Session

namespace World

/-- As long as versions are left, in any state that a run reaches: the version of a record lies
    between 1 and the version of the store; two records share one only if the commit of one
    transaction wrote both; the versions that came to stand at an address increase, up to that
    of the record which is there, and so does the version of the store; and the version of a
    row that a session reads tells whether the session holds it back. -/
theorem versions_run {steps : List Step} (hroom : init.handedOut steps < UInt64.size) :
    (∀ key r, (init.run steps).store.record? key = some r →
      1 ≤ r.version ∧ r.version ≤ (init.run steps).store.version) ∧
    (∀ key key' r r', key ≠ key' → (init.run steps).store.record? key = some r →
      (init.run steps).store.record? key' = some r' → r.version = r'.version →
      ∃ before n t after, steps = before ++ .act n (.finish .commit) :: after ∧
        init.CommitWrote before n t key r ∧ init.CommitWrote before n t key' r') ∧
    (∀ key, (init.stored key steps).Pairwise (· < ·) ∧
      ∀ r, (init.run steps).store.record? key = some r →
        (init.stored key steps).getLast? = some r.version) ∧
    (∀ before after, steps = before ++ after →
      (init.run before).store.version ≤ (init.run steps).store.version) ∧
    ∀ (α : Type) (type : EntityType α) (s : Session) (row : Row α),
      s.Reads (init.run steps).store type row →
        s.TellsVersion (init.run steps).store type row := by
  obtain ⟨hsound, hcount⟩ := sound_run sound_init steps (room_init hroom)
  refine ⟨fun key r hr => ⟨?_, ?_⟩, fun key key' r r' hne hr hr' hversion => ?_,
    fun key => ⟨?_, fun r hr => ?_⟩, fun before after hsplit => ?_,
    fun α type s row hreads => hreads.tellsVersion hsound⟩
  · exact UInt64.le_iff_toNat_le.2 (hsound.positive key r hr)
  · exact UInt64.le_iff_toNat_le.2 (hsound.le_version key r hr)
  · exact commits_of_shared hroom hne hr hr' hversion
  · exact pairwise_stored (within_on .empty) key (room_init hroom)
  · -- the first store has no records
    rcases getLast?_stored (within_on .empty) hr with ⟨-, hinit⟩ | hlast
    · cases (record?_empty key).symm.trans hinit
    · exact hlast
  · subst hsplit
    -- both runs take versions, so the store counts up
    rw [handedOut_append] at hroom hcount
    obtain ⟨-, hbefore⟩ := sound_run sound_init before (room_init (by omega))
    exact UInt64.le_iff_toNat_le.2 (by omega)

/-- A transaction saves two notes, of which one is deleted and saved again; then it is replaced
    in a second transaction that is still open. -/
def rewritten : List Step :=
  [.register Note.type.kind, .plain 0, .begin 1, .act 1 (.save Note.type (Note.of "a" "one")),
    .act 1 (.save Note.type (Note.of "b" "two")), .act 1 (.finish .commit),
    .act 0 (.delete Note.type "a"), .act 0 (.save Note.type (Note.of "a" "three")), .begin 2,
    .act 2 (.save Note.type (Note.of "a" "four"))]

/-- The versions of a note that is saved, deleted and saved again. -/
theorem versions_run_rewritten :
    init.handedOut rewritten = 2 ∧ init.stored ⟨"Note", "a"⟩ rewritten = [1, 2] ∧
      (init.stored ⟨"Note", "a"⟩ rewritten).Pairwise (· < ·) := by
  have hcount : init.handedOut rewritten = 2 := by decide +kernel
  have hroom : init.handedOut rewritten < UInt64.size := by rw [hcount]; decide
  exact ⟨hcount, by decide +kernel, ((versions_run hroom).2.2.1 ⟨"Note", "a"⟩).1⟩

end World

end EntityStore
