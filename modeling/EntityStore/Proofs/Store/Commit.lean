import EntityStore.Proofs.Store.Records

/-! # What a commit does

A commit of registered kinds has two outcomes.  If every record still has the version that
was seen, all writes are applied under one new version.  Otherwise the commit is refused as
a conflict, and the store stays as it is.  Which outcome it is does not hang on the order of
the checks; a conflict may name any of the records that have changed.

* `Store.checkReads_perm`  checks in two orders pass, or fail, together
* `Store.commit_cases`     the two outcomes of a commit
* `Store.commit_congr`     the outcome is the same in every order -/

namespace EntityStore

/-- An error is a conflict that names a record of another version than the one seen. -/
def Error.NamesChanged (e : Error) : Prop :=
  ∃ key seen current, current ≠ seen ∧
    e = .transactionConflict (Store.staleReason key seen current)

namespace Store

variable {store : Store} {reads : ReadSet} {writes : WriteSet}

/-! ## Checking reads -/

section Check

variable {l l' : List (RecordKey × UInt64)}

/-- All records still have the versions that were seen, or the check stops at one that has
    not. -/
theorem checkReads_cases (hreg : ∀ p ∈ l, store.isRegistered p.1.kind = true) :
    (store.checkReads l = .ok () ∧ ∀ p ∈ l, Record.seenVersion (store.record? p.1) = p.2) ∨
      ∃ p ∈ l, Record.seenVersion (store.record? p.1) ≠ p.2 ∧
        store.checkReads l = .error (.transactionConflict
          (staleReason p.1 p.2 (Record.seenVersion (store.record? p.1)))) := by
  -- along the list, as the check goes; it stops at the first record that has changed
  induction l with
  | nil => exact .inl ⟨rfl, nofun⟩
  | cons p l ih =>
    obtain ⟨key, seen⟩ := p
    rw [checkReads, read_eq, if_pos (hreg (key, seen) List.mem_cons_self)]
    by_cases hseen : Record.seenVersion (store.record? key) = seen
    · -- this record is fine, so the others decide
      simp only [hseen, ne_eq, not_true_eq_false, if_false]
      rcases ih fun p hp => hreg p (List.mem_cons_of_mem _ hp) with
        ⟨hok, hfresh⟩ | ⟨p, hp, hstale, herror⟩
      · exact .inl ⟨hok, List.forall_mem_cons.2 ⟨hseen, hfresh⟩⟩
      · exact .inr ⟨p, List.mem_cons_of_mem _ hp, hstale, herror⟩
    · -- this record has changed, so the check stops here
      refine .inr ⟨(key, seen), List.mem_cons_self, hseen, ?_⟩
      simp only [ne_eq, hseen, not_false_eq_true, if_true]

/-- The check passes if all records still have the versions that were seen. -/
theorem checkReads_ok_iff (hreg : ∀ p ∈ l, store.isRegistered p.1.kind = true) :
    store.checkReads l = .ok () ↔
      ∀ p ∈ l, Record.seenVersion (store.record? p.1) = p.2 := by
  rcases checkReads_cases hreg with ⟨hok, hfresh⟩ | ⟨p, hp, hstale, herror⟩
  · exact iff_of_true hok hfresh
  · refine iff_of_false (fun hok => ?_) fun hfresh => hstale (hfresh p hp)
    cases herror.symm.trans hok

/-- The check passes in one order if it passes in another. -/
theorem checkReads_perm (hperm : l.Perm l')
    (hreg : ∀ p ∈ l, store.isRegistered p.1.kind = true) :
    store.checkReads l = .ok () ↔ store.checkReads l' = .ok () := by
  have hreg' : ∀ p ∈ l', store.isRegistered p.1.kind = true := fun p hp =>
    hreg p (hperm.mem_iff.2 hp)
  rw [checkReads_ok_iff hreg, checkReads_ok_iff hreg']
  exact forall_congr' fun p => imp_congr_left hperm.mem_iff

end Check

/-! ## Commits -/

/-- Every order visits the versions that were seen, and no others. -/
theorem mem_visit_iff (order : CheckOrder) (reads : ReadSet) (p : RecordKey × UInt64) :
    p ∈ order.visit reads ↔ reads[p.1]? = some p.2 := by
  rw [(order.perm reads).mem_iff, Std.ExtTreeMap.mem_toList_iff_getElem?_eq_some]

variable (hreads : ∀ k, k ∈ reads → store.isRegistered k.kind = true)
include hreads

/-- The reads that a commit visits lie under registered kinds. -/
private theorem isRegistered_of_mem_visit (order : CheckOrder) (p : RecordKey × UInt64)
    (hp : p ∈ order.visit reads) : store.isRegistered p.1.kind = true := by
  have hsome := (mem_visit_iff order reads p).1 hp
  exact hreads p.1 (Std.ExtTreeMap.mem_iff_isSome_getElem?.2 (by rw [hsome]; rfl))

/-- A commit is refused for a record that has changed, or it applies all writes under one new
    version. -/
theorem commit_cases (order : CheckOrder)
    (hwrites : ∀ k, k ∈ writes → store.isRegistered k.kind = true) :
    (∃ (key : RecordKey) (seen : UInt64), reads[key]? = some seen ∧
        Record.seenVersion (store.record? key) ≠ seen ∧
        store.commit order reads writes =
          (.error (.transactionConflict
            (staleReason key seen (Record.seenVersion (store.record? key)))), store)) ∨
      (∀ (key : RecordKey) (seen : UInt64), reads[key]? = some seen →
        Record.seenVersion (store.record? key) = seen) ∧
      store.commit order reads writes =
        (.ok (), if writes.isEmpty then store else store.nextVersion.putAll writes.toList) := by
  rcases checkReads_cases (isRegistered_of_mem_visit hreads order) with
    ⟨hok, hfresh⟩ | ⟨p, hp, hstale, herror⟩
  · refine .inr ⟨fun key seen h => hfresh (key, seen) ((mem_visit_iff order reads _).2 h), ?_⟩
    -- the writes lie under registered kinds, so none of them stops the others
    have happly : store.nextVersion.writeAll writes.toList =
        (.ok (), store.nextVersion.putAll writes.toList) := by
      apply writeAll_eq _ _
      intro w hw
      have hsome := Std.ExtTreeMap.mem_toList_iff_getElem?_eq_some.1 hw
      exact hwrites w.1 (Std.ExtTreeMap.mem_iff_isSome_getElem?.2 (by rw [hsome]; rfl))
    rw [commit, hok]
    cases hempty : writes.isEmpty with
    -- without writes no version is taken
    | true => simp only [if_true]
    | false => simp only [happly, Bool.false_eq_true, if_false]
  · exact .inl ⟨p.1, p.2, (mem_visit_iff order reads p).1 hp, hstale, by rw [commit, herror]⟩

/-- A commit whose records have not changed applies all writes under one new version. -/
theorem commit_of_fresh (order : CheckOrder)
    (hwrites : ∀ k, k ∈ writes → store.isRegistered k.kind = true)
    (hfresh : ∀ (k : RecordKey) (v : UInt64), reads[k]? = some v →
      Record.seenVersion (store.record? k) = v) :
    store.commit order reads writes =
      (.ok (), if writes.isEmpty then store else store.nextVersion.putAll writes.toList) := by
  rcases commit_cases hreads order hwrites with ⟨key, seen, hkey, hstale, -⟩ | ⟨-, hcommit⟩
  · exact absurd (hfresh key seen hkey) hstale
  · exact hcommit

/-- A commit is refused as a conflict if one record has changed. -/
theorem commit_of_stale (order : CheckOrder)
    (hwrites : ∀ k, k ∈ writes → store.isRegistered k.kind = true) {key : RecordKey}
    {seen : UInt64} (hkey : reads[key]? = some seen)
    (hstale : Record.seenVersion (store.record? key) ≠ seen) :
    ∃ reason, store.commit order reads writes =
      (.error (.transactionConflict reason), store) := by
  rcases commit_cases hreads order hwrites with ⟨_, _, -, -, hcommit⟩ | ⟨hfresh, -⟩
  · exact ⟨_, hcommit⟩
  · exact absurd (hfresh key seen hkey) hstale

/-- The order of the checks decides at most which record a conflict names. -/
theorem commit_congr (order order' : CheckOrder)
    (hwrites : ∀ k, k ∈ writes → store.isRegistered k.kind = true) :
    store.commit order reads writes = store.commit order' reads writes ∨
      ∃ e e', e.NamesChanged ∧ e'.NamesChanged ∧
        store.commit order reads writes = (.error e, store) ∧
        store.commit order' reads writes = (.error e', store) := by
  rcases commit_cases hreads order hwrites with
    ⟨key, seen, hkey, hstale, hcommit⟩ | ⟨hfresh, hcommit⟩
  · rcases commit_cases hreads order' hwrites with
      ⟨key', seen', -, hstale', hcommit'⟩ | ⟨hfresh', -⟩
    · exact .inr ⟨_, _, ⟨key, seen, _, hstale, rfl⟩, ⟨key', seen', _, hstale', rfl⟩, hcommit,
        hcommit'⟩
    · -- the other order visits the changed record as well
      exact absurd (hfresh' key seen hkey) hstale
  · exact .inl (hcommit.trans (commit_of_fresh hreads order' hwrites hfresh).symm)

end Store

/-- By key, from the greatest one on. -/
def CheckOrder.descending : CheckOrder :=
  ⟨fun reads => reads.toList.reverse, fun _ => List.reverse_perm _⟩

-- two records have been deleted since they were read, and either may be named
example :
    let reads : ReadSet := (∅ : ReadSet).insertMany [(⟨"Note", "a"⟩, 1), (⟨"Note", "b"⟩, 2)]
    let answer (order : CheckOrder) : Except Error Unit := do
      let store ← Store.empty.register ⟨"Note", "notes::Note"⟩
      (store.commit order reads ∅).1
    answer .ascending =
        .error (.transactionConflict "Note:a changed since read (read version 1, now 0)") ∧
      answer .descending =
        .error (.transactionConflict "Note:b changed since read (read version 2, now 0)") := by
  constructor <;> with_unfolding_all rfl

end EntityStore
