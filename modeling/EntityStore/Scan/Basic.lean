import EntityStore.Error
import EntityStore.Scan.Selection

/-! # Scans

A scan selects from a raw source the items that pass a filter, and keeps one of them ready
ahead of its caller.  The cursor that it reports was taken before the pull that gave the
item kept ready, so a scan opened at that cursor starts with that very item.

* `Scan.advance`  pulls until an item passes or the source has none
* `Scan.next`     hands out the item kept ready
* `Scan.wellFounded_successor`  every scan comes to its end, so recursion along `next` ends

A scan is for reading: `Scan.remove` is refused. -/

namespace EntityStore

variable {σ ρ ω τ : Type}

/-- The selected values of a source, one by one, with one of them kept ready. -/
structure Scan (sel : Selection σ ρ ω τ) where
  /-- The source behind everything that was pulled. -/
  state : σ
  /-- What the filter remembers. -/
  memory : ω
  /-- The place from which the value kept ready would be read again. -/
  cursor : Cursor
  /-- The value kept ready; nothing once the source had none. -/
  lookahead : Option τ
  /-- While a value is kept ready the source may be pulled on. -/
  finite : lookahead.isSome → sel.source.Finite state

namespace Scan

variable {sel : Selection σ ρ ω τ}

/-- Pull until a value passes the filter or the source has no item. -/
def advance (sel : Selection σ ρ ω τ) (state : σ) (memory : ω)
    (finite : sel.source.Finite state) : Scan sel :=
  match h : sel.source.pull state with
  | (none, state') => ⟨state', memory, sel.source.cursor state, none, nofun⟩
  | (some item, state') =>
    match sel.filter.test (sel.extract item) memory with
    | (true, memory') =>
      ⟨state', memory', sel.source.cursor state, some (sel.extract item),
        fun _ => finite.of_pull h⟩
    | (false, memory') => advance sel state' memory' (finite.of_pull h)
termination_by finite.wrap
decreasing_by exact ⟨item, h⟩

/-- Start to select from a source. -/
def start (sel : Selection σ ρ ω τ) (state : σ) (memory : ω)
    (finite : sel.source.Finite state) : Scan sel :=
  advance sel state memory finite

/-- Whether a value is kept ready. -/
def hasNext (scan : Scan sel) : Bool := scan.lookahead.isSome

/-- The value kept ready. -/
def peek (scan : Scan sel) : Option τ := scan.lookahead

/-- Hand out the value kept ready and get the one behind it ready. -/
def next (scan : Scan sel) : Option τ × Scan sel :=
  match h : scan.lookahead with
  | none => (none, scan)
  | some value =>
    (some value, advance sel scan.state scan.memory (scan.finite (by simp [h])))

/-- Results cannot be removed. -/
def remove (_ : Scan sel) : Except Error Unit :=
  .error (.unsupportedOperation "remove")

/-! ## How a scan goes on -/

/-- A pull without an item ends the scan, at the cursor in front of that pull. -/
theorem advance_of_none {state state' : σ} {memory : ω} {finite : sel.source.Finite state}
    (h : sel.source.pull state = (none, state')) :
    advance sel state memory finite =
      ⟨state', memory, sel.source.cursor state, none, nofun⟩ := by
  rw [advance]
  split
  · next h' => cases h.symm.trans h'; rfl
  · next h' => cases h.symm.trans h'

/-- An item that passes is kept ready, at the cursor in front of the pull that gave it. -/
theorem advance_of_true {state state' : σ} {memory memory' : ω} {item : ρ}
    {finite : sel.source.Finite state} (h : sel.source.pull state = (some item, state'))
    (ht : sel.filter.test (sel.extract item) memory = (true, memory')) :
    advance sel state memory finite =
      ⟨state', memory', sel.source.cursor state, some (sel.extract item),
        fun _ => finite.of_pull h⟩ := by
  rw [advance]
  split
  · next h' => cases h.symm.trans h'
  · next h' =>
    cases h.symm.trans h'
    split
    · next ht' => cases ht.symm.trans ht'; rfl
    · next ht' => cases ht.symm.trans ht'

/-- An item that does not pass is skipped; only the memory of the filter tells of it. -/
theorem advance_of_false {state state' : σ} {memory memory' : ω} {item : ρ}
    {finite : sel.source.Finite state} (h : sel.source.pull state = (some item, state'))
    (ht : sel.filter.test (sel.extract item) memory = (false, memory')) :
    advance sel state memory finite = advance sel state' memory' (finite.of_pull h) := by
  conv => lhs; rw [advance]
  split
  · next h' => cases h.symm.trans h'
  · next h' =>
    cases h.symm.trans h'
    split
    · next ht' => cases ht.symm.trans ht'
    · next ht' => cases ht.symm.trans ht'; rfl

/-- `Successor t s` says that `s` hands out a value and goes on as `t`. -/
def Successor (t s : Scan sel) : Prop := ∃ value, s.next = (some value, t)

/-- A scan that keeps nothing ready does not go on. -/
theorem not_successor_of_lookahead_none {s t : Scan sel}
    (h : s.lookahead = none) : ¬ Successor t s := by
  rintro ⟨value, hn⟩
  rw [next] at hn
  split at hn
  · cases hn
  · next h' => cases h.symm.trans h'

/-- A scan comes to its end, however far it has to pull for each item. -/
theorem acc_advance (state : σ) (memory : ω) (finite : sel.source.Finite state) :
    Acc Successor (advance sel state memory finite) := by
  refine finite.induction (motive := fun s => ∀ (m : ω) (h : sel.source.Finite s),
    Acc Successor (advance sel s m h)) (fun s _ ih m h => ?_) memory finite
  -- pulling uses the source up, whether the item passes or not
  rcases hp : sel.source.pull s with ⟨_ | item, s'⟩
  · rw [advance_of_none hp]
    exact Acc.intro _ fun _ hs => absurd hs (not_successor_of_lookahead_none rfl)
  · rcases ht : sel.filter.test (sel.extract item) m with ⟨_ | _, m'⟩
    · rw [advance_of_false hp ht]
      exact ih item s' hp m' _
    · rw [advance_of_true hp ht]
      refine Acc.intro _ fun t ⟨value, hn⟩ => ?_
      obtain ⟨-, rfl⟩ := Prod.mk.inj hn
      exact ih item s' hp m' _

/-- Every scan comes to its end. -/
theorem wellFounded_successor : WellFounded (@Successor σ ρ ω τ sel) := by
  refine ⟨fun s => Acc.intro s fun t ⟨value, hn⟩ => ?_⟩
  rw [next] at hn
  split at hn
  · cases hn
  · obtain ⟨-, rfl⟩ := Prod.mk.inj hn
    exact acc_advance _ _ _

instance : WellFoundedRelation (Scan sel) := ⟨Successor, wellFounded_successor⟩

end Scan

end EntityStore
