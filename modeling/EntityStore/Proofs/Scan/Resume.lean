import EntityStore.Proofs.Scan.Demands
import Mathlib.Data.List.Permutation

/-! # Scans opened again

A scan holds its source one item ahead of its caller, at the least: behind the item kept
ready, or behind the pull that gave none.  A scan that is opened at the reported cursor finds
that item, or the end, once more.  The two hold different states of the source, and yet nobody
can tell them apart.

* `Source.Same`        two states from which the same items come at the same cursors
* `Source.Resumable`   a source goes on in the same way when it is opened at its own cursors
* `Scan.Alike`         two scans that have the same ready, with sources that go on the same
* `Scan.resume_exact`  a scan opened at the cursor of another answers as that one does -/

namespace EntityStore

/-! ## Sources that can be opened again -/

namespace Source

variable {σ ρ : Type} {source : Source σ ρ} {s t : σ} {items : List ρ}

/-- From two states, a source goes on with the same items at the same cursors. -/
def Same (source : Source σ ρ) (s t : σ) : Prop :=
  ∀ n, source.cursor (source.after n s) = source.cursor (source.after n t) ∧
    (source.pull (source.after n s)).1 = (source.pull (source.after n t)).1

/-- Opened at a cursor that it reports in the course of pulls from `s`, a source goes on with
    the same items at the same cursors as it does there. -/
def Resumable (source : Source σ ρ) (reopen : Cursor → σ) (s : σ) : Prop :=
  ∀ n, source.Same (source.after n s) (reopen (source.cursor (source.after n s)))

namespace Same

/-- Such states have the same cursor. -/
theorem cursor (h : source.Same s t) : source.cursor s = source.cursor t := (h 0).1

/-- The same item comes from such states. -/
theorem item (h : source.Same s t) : (source.pull s).1 = (source.pull t).1 := (h 0).2

/-- Such states stay the same behind a pull. -/
theorem pull (h : source.Same s t) : source.Same (source.pull s).2 (source.pull t).2 :=
  fun n => h (n + 1)

/-- The same items come from such states. -/
theorem gives (h : source.Same s t) (hs : source.Gives s items) : source.Gives t items := by
  induction items generalizing s t with
  | nil => exact h.item.symm.trans hs
  | cons item items ih => exact ⟨h.item.symm.trans hs.1, ih h.pull hs.2⟩

end Same

/-- The position that a cursor of a list stands for. -/
def positionOf (cursor : Cursor) : Nat := Nat.ofDigitChars 10 cursor.token.toList 0

/-- The items of a list, with the position as the cursor, can be gone on with from any place,
    also behind entries that hold no item. -/
theorem resumable_ofList (entries : List (Option ρ)) (position : Nat) :
    (ofList entries).Resumable positionOf position := by
  intro n
  have hplace (position : Nat) : positionOf ((ofList entries).cursor position) = position := by
    have hdigits : (toString position).toList = Nat.toDigits 10 position := String.toList_ofList
    rw [positionOf, ofList, hdigits, Nat.ofDigitChars_toDigits (by decide) (by decide)]
  rw [hplace]
  exact fun _ => ⟨rfl, rfl⟩

end Source

namespace Scan

variable {σ ρ ω τ : Type} {sel : Selection σ ρ ω τ} {p : τ → Bool} {scan scan' : Scan sel}

/-! ## Scans that cannot be told apart -/

/-- Two scans have the same ready, and while that is a value, their sources go on the same. -/
structure Alike (scan scan' : Scan sel) : Prop where
  lookahead : scan.lookahead = scan'.lookahead
  cursor : scan.cursor = scan'.cursor
  state : scan.lookahead.isSome = true → sel.source.Same scan.state scan'.state

/-- Pulling from states from which the source goes on the same leads to the same value. -/
theorem alike_advance (hp : sel.filter.Decides p) {s t : σ} (h : sel.source.Same s t)
    (memory memory' : ω) (finite : sel.source.Finite s) (finite' : sel.source.Finite t) :
    Alike (advance sel s memory finite) (advance sel t memory' finite') := by
  refine finite.induction (motive := fun s => ∀ t memory memory', sel.source.Same s t →
    ∀ finite finite', Alike (advance sel s memory finite) (advance sel t memory' finite'))
    (fun s _ ih t memory memory' h finite finite' => ?_) t memory memory' h finite finite'
  have hnext := h.pull
  have hitem := h.item
  rcases hs : sel.source.pull s with ⟨_ | item, s'⟩
  · rcases ht : sel.source.pull t with ⟨_ | item', t'⟩
    · -- both sources are at their end, or neither is
      rw [advance_of_none hs, advance_of_none ht]
      exact ⟨rfl, h.cursor, nofun⟩
    · rw [hs, ht] at hitem
      cases hitem
  · rcases ht : sel.source.pull t with ⟨_ | item', t'⟩
    · rw [hs, ht] at hitem
      cases hitem
    · rw [hs, ht] at hitem hnext
      obtain rfl := Option.some.inj hitem
      -- whatever the filter remembers, it decides the same about the item
      have htest (m : ω) : sel.filter.test (sel.extract item) m =
          (p (sel.extract item), (sel.filter.test (sel.extract item) m).2) :=
        Prod.ext (hp _ m) rfl
      have hfirst := htest memory
      have hsecond := htest memory'
      cases hpasses : p (sel.extract item) with
      | false =>
        rw [hpasses] at hfirst hsecond
        rw [advance_of_false hs hfirst, advance_of_false ht hsecond]
        exact ih item s' hs t' _ _ hnext _ _
      | true =>
        rw [hpasses] at hfirst hsecond
        rw [advance_of_true hs hfirst, advance_of_true ht hsecond]
        exact ⟨rfl, h.cursor, fun _ => hnext⟩

/-- Scans that cannot be told apart cannot be told apart behind their next value either. -/
theorem Alike.next (hp : sel.filter.Decides p) (h : Alike scan scan') :
    Alike scan.next.2 scan'.next.2 := by
  cases hready : scan.lookahead with
  | none =>
    rw [next_of_none hready, next_of_none (h.lookahead ▸ hready)]
    exact h
  | some value =>
    obtain ⟨finite, hnext⟩ := next_of_some hready
    obtain ⟨finite', hnext'⟩ := next_of_some (h.lookahead ▸ hready)
    -- both pull for the next value from states that give the same items
    rw [hnext, hnext']
    exact alike_advance hp (h.state (by rw [hready]; rfl)) _ _ _ _

/-- Scans that are alike have the same ahead. -/
theorem Alike.ahead (hp : sel.filter.Decides p) {last : Cursor} {values : List (Cursor × τ)}
    (h : Alike scan scan') (hahead : Ahead last scan values) : Ahead last scan' values := by
  induction values generalizing scan scan' with
  | nil => exact ⟨h.lookahead.symm.trans hahead.1, h.cursor.symm.trans hahead.2⟩
  | cons v values ih =>
    obtain ⟨hready, hcursor, hrest⟩ := hahead
    exact ⟨h.lookahead.symm.trans hready, h.cursor.symm.trans hcursor, ih (h.next hp) hrest⟩

/-! ## Opening a scan again -/

/-- A scan that stands at a cut is like one that starts at the cut, on any state from which
    the source goes on the same as behind the items in front of the cut. -/
theorem Aligned.alike_start {s t : σ} {memory : ω} {before rest : List ρ}
    (h : Aligned s memory before rest scan) (hp : sel.filter.Decides p)
    (hready : ∀ item ∈ rest.head?, p (sel.extract item) = true)
    (hgives : sel.source.Gives (sel.source.after before.length s) rest)
    (hsame : sel.source.Same (sel.source.after before.length s) t) (memory' : ω)
    (finite : sel.source.Finite t) : Alike scan (start sel t memory' finite) := by
  have hnext := hsame.pull
  rw [← Source.after_succ, ← h.state] at hnext
  have hcursor : scan.cursor = sel.source.cursor t := h.cursor.trans hsame.cursor
  rw [start]
  cases rest with
  | nil =>
    have hnone : (sel.source.pull t).1 = none := hsame.item.symm.trans hgives
    -- both scans are at their end, so what their sources hold no longer matters
    rw [advance_of_none (Prod.ext hnone rfl)]
    refine ⟨h.lookahead, hcursor, fun hsome => ?_⟩
    rw [h.lookahead] at hsome
    cases hsome
  | cons item rest =>
    have hitem : (sel.source.pull t).1 = some item := hsame.item.symm.trans hgives.1
    have htest : (sel.filter.test (sel.extract item) memory').1 = true :=
      (hp _ _).trans (hready item rfl)
    -- the item kept ready passed before, so it passes again and nothing is skipped
    rw [advance_of_true (Prod.ext hitem rfl) (Prod.ext htest rfl)]
    exact ⟨h.lookahead, hcursor, fun _ => hnext⟩

/-- Whatever a scan has been asked for, a scan that is opened on the source at its cursor
    gives the same answers from there on, whatever is asked. -/
theorem resume_exact (hp : sel.filter.Decides p) {s : σ} (finite : sel.source.Finite s)
    {reopen : Cursor → σ} (hresume : sel.source.Resumable reopen s) (memory memory' : ω)
    (earlier later : List Demand) :
    let first := (start sel s memory finite).beyondAll earlier
    ∃ finite' : sel.source.Finite (reopen first.cursor),
      (start sel (reopen first.cursor) memory' finite').answers later = first.answers later := by
  intro first
  obtain ⟨items, hitems⟩ := Source.exists_gives_iff.2 finite
  -- it stands where some calls of `next` would have led it
  obtain ⟨calls, hcalls⟩ : ∃ calls, first = (start sel s memory finite).behindAll calls :=
    beyondAll_eq_behindAll _ earlier
  obtain ⟨before, rest, hcut, haligned⟩ :=
    (alignedAt_start hp hitems memory).behindAll hp hitems calls
  have hfirst : Aligned s memory before rest first := by
    rw [hcalls]
    exact haligned
  have hgives : sel.source.Gives (sel.source.after before.length s) rest :=
    (hcut.items_eq ▸ hitems).drop
  -- the cursor is that of the source in front of the item kept ready
  have hsame : sel.source.Same (sel.source.after before.length s) (reopen first.cursor) := by
    rw [hfirst.cursor]
    exact hresume before.length
  have finite' : sel.source.Finite (reopen first.cursor) := (hsame.gives hgives).finite
  have halike := hfirst.alike_start hp hcut.passes hgives hsame memory' finite'
  obtain ⟨last, values, hahead⟩ := first.exists_ahead
  exact ⟨finite', (halike.ahead hp hahead).answers_eq hahead later⟩

/-- A page without items, and then all that there is in front of the entry without an item. -/
def emptied : List Demand := [.collect (some (.first 0)), .drain]

/-- What a scan can still be asked for at its end. -/
def further : List Demand :=
  [.call .hasNext, .call .next, .call .cursor, .collect (some (.first 2)), .drain]

/-- A scan that has come to its end in the middle of a list is opened again there: it does not
    go on with the items behind. -/
theorem resume_exact_interrupted :
    let first := (start evens 0 [] (Source.finite_ofList interrupted 0)).beyondAll emptied
    first.cursor = ⟨"3"⟩ ∧ evens.source.Resumable Source.positionOf 0 ∧
      ∃ finite' : evens.source.Finite (Source.positionOf first.cursor),
        (start evens (Source.positionOf first.cursor) [] finite').answers further =
          [.ready false, .value none, .place ⟨"3"⟩,
            .results ⟨[], some ⟨2, some ⟨"3"⟩, none, 0⟩⟩, .results ⟨[], none⟩] := by
  intro first
  have hresume : evens.source.Resumable Source.positionOf 0 :=
    Source.resumable_ofList interrupted 0
  have finite := Source.finite_ofList interrupted 0
  have hcursor : ((start evens 0 [] finite).beyondAll emptied).cursor = ⟨"3"⟩ := by cbv
  obtain ⟨finite', hanswers⟩ :=
    resume_exact (Filter.decides_recording _) finite hresume [] [] emptied further
  refine ⟨hcursor, hresume, finite', hanswers.trans ?_⟩
  cbv

end Scan

end EntityStore
