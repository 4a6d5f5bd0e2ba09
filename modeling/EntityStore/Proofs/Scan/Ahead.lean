import EntityStore.Scan.Paging

/-! # What is ahead of a scan

`Scan.Ahead last scan values` says that a scan will hand out `values` and then nothing, where
each value stands with the cursor that is reported while it is kept ready, and `last` is the
cursor reported behind them.  Everything that pages are made of can be read off this list.

* `Scan.Ahead.take`      taking up to `n` values takes the first `n` of the list
* `Scan.Ahead.drain`     draining takes all of them
* `Scan.Ahead.takePage`  a page is a prefix of the list, between two cursors of it -/

namespace EntityStore

namespace Scan

variable {σ ρ ω τ : Type} {sel : Selection σ ρ ω τ} {last : Cursor}

/-- A scan hands out these values, each at its cursor, and comes to its end at `last`. -/
def Ahead (last : Cursor) : Scan sel → List (Cursor × τ) → Prop
  | scan, [] => scan.lookahead = none ∧ scan.cursor = last
  | scan, (cursor, value) :: values =>
    scan.lookahead = some value ∧ scan.cursor = cursor ∧ Ahead last scan.next.2 values

/-- The cursor reported in front of some values. -/
def cursorOf (last : Cursor) : List (Cursor × τ) → Cursor
  | [] => last
  | (cursor, _) :: _ => cursor

/-- At its end a scan hands out nothing, and stays as it is. -/
theorem next_of_none {scan : Scan sel} (h : scan.lookahead = none) : scan.next = (none, scan) := by
  unfold next
  split
  · rfl
  · next h' => cases h.symm.trans h'

/-- What a scan keeps ready is what it hands out next. -/
theorem next_fst {scan : Scan sel} {value : τ} (h : scan.lookahead = some value) :
    scan.next.1 = some value := by
  unfold next
  split
  · next h' => cases h.symm.trans h'
  · next h' => exact h'.symm.trans h

namespace Ahead

variable {scan : Scan sel} {values : List (Cursor × τ)}

/-- A scan stands at the cursor of the first value ahead, or at the last one. -/
theorem cursor_eq (h : Ahead last scan values) : scan.cursor = cursorOf last values := by
  cases values with
  | nil => exact h.2
  | cons v values => exact h.2.1

/-- A value is kept ready exactly if one is ahead. -/
theorem hasNext_eq (h : Ahead last scan values) : scan.hasNext = !values.isEmpty := by
  cases values with
  | nil => rw [hasNext, h.1]; rfl
  | cons v values => rw [hasNext, h.1]; rfl

/-- Taking some values hands out the first ones, and the others stay ahead. -/
theorem take (h : Ahead last scan values) (n : Nat) :
    (scan.take n).1 = (values.take n).map Prod.snd ∧
      Ahead last (scan.take n).2 (values.drop n) := by
  induction n generalizing scan values with
  | zero =>
    rw [Scan.take, List.take_zero, List.drop_zero]
    exact ⟨rfl, h⟩
  | succ n ih =>
    cases values with
    | nil =>
      -- a scan at its end stays there
      rw [Scan.take, next_of_none h.1]
      exact ⟨rfl, h⟩
    | cons v values =>
      obtain ⟨hready, -, hnext⟩ := h
      have hpair : scan.next = (some v.2, scan.next.2) := Prod.ext (next_fst hready) rfl
      -- the first value is handed out, and what is behind it is ahead of the rest
      obtain ⟨hvalues, hrest⟩ := ih hnext
      rw [Scan.take, hpair]
      simp only [List.take_succ_cons, List.map_cons, List.drop_succ_cons]
      exact ⟨by rw [hvalues], hrest⟩

/-- Taking all values hands out everything that is ahead. -/
theorem takeAll (h : Ahead last scan values) : scan.takeAll.1 = values.map Prod.snd := by
  induction values generalizing scan with
  | nil =>
    unfold Scan.takeAll
    split
    · rfl
    · next hn => cases (next_of_none h.1).symm.trans hn
  | cons v values ih =>
    obtain ⟨hready, -, hnext⟩ := h
    unfold Scan.takeAll
    split
    · -- a value is ready, so the scan does not stop here
      next hn => cases (next_fst hready).symm.trans (congrArg Prod.fst hn)
    · next value rest hn =>
      have hvalue : value = v.2 :=
        Option.some.inj ((congrArg Prod.fst hn).symm.trans (next_fst hready))
      -- what is behind the first value is ahead of the scan behind it
      have hrest : scan.next.2 = rest := congrArg Prod.snd hn
      rw [hrest] at hnext
      rw [List.map_cons, ← ih hnext, hvalue]

/-- Everything that is ahead, without a page. -/
theorem drain (h : Ahead last scan values) :
    scan.drain.1 = ⟨values.map Prod.snd, none⟩ := by
  rw [Scan.drain, ← h.takeAll]

/-- The account of a page of `n` values out of those that are ahead. -/
theorem takePage (h : Ahead last scan values) (request : Page) :
    (scan.takePage request).1 =
      ⟨(values.take request.size.toNat).map Prod.snd,
        some (request.fill (some (cursorOf last values))
          (if values.drop request.size.toNat = [] then none
            else some (cursorOf last (values.drop request.size.toNat)))
          (values.take request.size.toNat).length)⟩ := by
  obtain ⟨hvalues, hrest⟩ := h.take request.size.toNat
  -- the cursor behind the page is that of the scan that has handed out the page
  have hnext : (if (scan.take request.size.toNat).2.hasNext
        then some (scan.take request.size.toNat).2.cursor else none) =
      if values.drop request.size.toNat = [] then none
        else some (cursorOf last (values.drop request.size.toNat)) := by
    rw [hrest.hasNext_eq, hrest.cursor_eq]
    cases values.drop request.size.toNat <;> rfl
  show (⟨(scan.take request.size.toNat).1, some (request.fill (some scan.cursor)
    (if (scan.take request.size.toNat).2.hasNext
      then some (scan.take request.size.toNat).2.cursor else none)
    (scan.take request.size.toNat).1.length)⟩ : Results τ) = _
  rw [hnext, h.cursor_eq, hvalues, List.length_map]

end Ahead

end Scan

end EntityStore
