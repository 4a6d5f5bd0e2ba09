import EntityStore.Proofs.Scan.Ahead

/-! # Calls on a scan

A scan runs one item ahead of its caller.  Whatever it is called for, and in whatever order,
its items fall into two parts: those in front of the one kept ready, and those from it on.
Everything that the scan shows, remembers and has taken from its source follows from this
cut.

* `Source.Gives`              the items of a source in front of its first pull without one
* `Filter.Decides`            the answers of a filter are those of a predicate
* `Scan.Aligned`              a scan stands at a cut of its items
* `Scan.aligned_advance`      pulling moves the cut to the next item that passes
* `Scan.AlignedAt.behindAll`  calls move it by as many items that pass as were asked for
* `Scan.calls_exact`          what a scan shows, remembers and has pulled behind any calls -/

namespace EntityStore

/-! ## Items of a source -/

namespace Source

variable {σ ρ : Type} {source : Source σ ρ} {s : σ} {items : List ρ}

/-- The state behind a number of pulls. -/
def after (source : Source σ ρ) : Nat → σ → σ
  | 0, s => s
  | n + 1, s => source.after n (source.pull s).2

/-- The items that a source gives up to its first pull without one.  It may have more
    behind that pull. -/
def Gives (source : Source σ ρ) : σ → List ρ → Prop
  | s, [] => (source.pull s).1 = none
  | s, item :: items => (source.pull s).1 = some item ∧ source.Gives (source.pull s).2 items

/-- The last of some pulls may be looked at by itself. -/
theorem after_succ (source : Source σ ρ) (n : Nat) (s : σ) :
    source.after (n + 1) s = (source.pull (source.after n s)).2 := by
  induction n generalizing s with
  | zero => rfl
  | succ n ih => exact ih (source.pull s).2

/-- A source that gives only so many items is finite. -/
theorem Gives.finite (h : source.Gives s items) : source.Finite s := by
  induction items generalizing s with
  | nil => exact Finite.of_pull_none (Prod.ext h rfl)
  | cons item items ih =>
    refine Acc.intro s fun t ⟨item', hp⟩ => ?_
    have ht : (source.pull s).2 = t := congrArg Prod.snd hp
    exact ht ▸ ih h.2

/-- A source that comes to a pull without an item gives some items up to there. -/
theorem exists_gives_iff : (∃ items, source.Gives s items) ↔ source.Finite s := by
  refine ⟨fun ⟨items, h⟩ => h.finite, fun h => ?_⟩
  -- along the pulls, up to the one that gives nothing
  refine h.induction (motive := fun s => ∃ items, source.Gives s items) fun s _ ih => ?_
  rcases hp : source.pull s with ⟨_ | item, t⟩
  · exact ⟨[], congrArg Prod.fst hp⟩
  · obtain ⟨items, hitems⟩ := ih item t hp
    refine ⟨item :: items, congrArg Prod.fst hp, ?_⟩
    rw [hp]
    exact hitems

/-- Behind some of its items, a source gives the others. -/
theorem Gives.drop {before rest : List ρ} (h : source.Gives s (before ++ rest)) :
    source.Gives (source.after before.length s) rest := by
  induction before generalizing s with
  | nil => exact h
  | cons item before ih => exact ih h.2

/-! ### Counting pulls -/

/-- The count of pulls goes up with every pull. -/
theorem after_counted (source : Source σ ρ) (n m : Nat) (s : σ) :
    source.counted.after n (s, m) = (source.after n s, m + n) := by
  induction n generalizing s m with
  | zero => rfl
  | succ n ih =>
    rw [after, after, Nat.add_comm n 1, ← Nat.add_assoc]
    exact ih (m + 1) (source.pull s).2

/-- Counting pulls changes no items. -/
theorem Gives.counted (h : source.Gives s items) (m : Nat) :
    source.counted.Gives (s, m) items := by
  induction items generalizing s m with
  | nil => exact h
  | cons item items ih => exact ⟨h.1, ih h.2 (m + 1)⟩

end Source

/-! ## Answers of a filter -/

namespace Filter

variable {ω τ : Type}

/-- Whatever a filter remembers, its answers are those of a predicate. -/
def Decides (filter : Filter ω τ) (p : τ → Bool) : Prop := ∀ x m, (filter.test x m).1 = p x

/-- What a filter remembers once it has been asked about some values, in order. -/
def asked (filter : Filter ω τ) (memory : ω) (values : List τ) : ω :=
  values.foldl (fun m x => (filter.test x m).2) memory

/-- A filter that records answers as its predicate does, whatever it has recorded. -/
theorem decides_recording (p : τ → Bool) : (recording p).Decides p := fun _ _ => rfl

/-- A filter that lets everything pass answers as the predicate that always holds. -/
theorem decides_all : (all : Filter ω τ).Decides fun _ => true := fun _ _ => rfl

/-- A filter that records knows every value it was asked about, and how often. -/
theorem asked_recording (p : τ → Bool) (values asked : List τ) :
    (recording p).asked asked values = asked ++ values := by
  induction values generalizing asked with
  | nil => exact (List.append_nil asked).symm
  | cons x values ih => exact (ih (asked ++ [x])).trans (List.append_cons ..).symm

/-- What a filter remembers behind one more question is up to that question. -/
theorem asked_concat (filter : Filter ω τ) (memory : ω) (values : List τ) (x : τ) :
    filter.asked memory (values ++ [x]) = (filter.test x (filter.asked memory values)).2 := by
  rw [asked, List.foldl_append]
  rfl

end Filter

/-- A selection with the pulls of its source counted. -/
def Selection.counted {σ ρ ω τ : Type} (sel : Selection σ ρ ω τ) : Selection (σ × Nat) ρ ω τ :=
  { sel with source := sel.source.counted }

namespace Scan

variable {σ ρ ω τ : Type} {sel : Selection σ ρ ω τ} {p : τ → Bool} {s : σ} {memory : ω}
  {before rest : List ρ} {scan : Scan sel}

/-! ## Cuts -/

/-- A cut of some items in front of one that passes, or at their end, with `n` of those that
    pass in front of it, or all. -/
structure Cut (extract : ρ → τ) (p : τ → Bool) (items : List ρ) (n : Nat)
    (before rest : List ρ) : Prop where
  items_eq : items = before ++ rest
  handed : (before.map extract).filter p = ((items.map extract).filter p).take n
  passes : ∀ item ∈ rest.head?, p (extract item) = true

namespace Cut

variable {extract : ρ → τ} {items before' rest' : List ρ} {n : Nat} {item : ρ}

/-- The values that are left behind a cut. -/
theorem left (h : Cut extract p items n before rest) :
    (rest.map extract).filter p = ((items.map extract).filter p).drop n := by
  have hsplit : (items.map extract).filter p =
      (before.map extract).filter p ++ (rest.map extract).filter p := by
    rw [h.items_eq, List.map_append, List.filter_append]
  rw [h.handed] at hsplit
  exact List.append_cancel_left (hsplit.symm.trans (List.take_append_drop ..).symm)

/-- The first item behind a cut is the next one that passes. -/
theorem head? (h : Cut extract p items n before rest) :
    rest.head?.map extract = ((items.map extract).filter p)[n]? := by
  rw [← List.head?_drop, ← h.left]
  cases rest with
  | nil => rfl
  | cons item rest =>
    rw [List.map_cons, List.filter_cons_of_pos (h.passes item rfl)]
    rfl

/-- Two cuts with the same values in front of them have no item between them. -/
private theorem eq_nil (h : Cut extract p items n before (rest ++ rest'))
    (h' : Cut extract p items n (before ++ rest) rest') : rest = [] := by
  cases rest with
  | nil => rfl
  | cons item rest =>
    -- an item that passes would have been handed out at the one cut and not at the other
    have hhanded := h.handed.trans h'.handed.symm
    have hpasses : p (extract item) = true := h.passes item rfl
    rw [List.map_append, List.filter_append, List.map_cons,
      List.filter_cons_of_pos hpasses] at hhanded
    have hlength := congrArg List.length hhanded
    rw [List.length_append, List.length_cons] at hlength
    omega

/-- There is only one such cut. -/
theorem unique (h : Cut extract p items n before rest) (h' : Cut extract p items n before' rest') :
    before = before' ∧ rest = rest' := by
  rcases List.append_eq_append_iff.1 (h.items_eq.symm.trans h'.items_eq) with
    ⟨more, rfl, rfl⟩ | ⟨more, rfl, rfl⟩
  · obtain rfl := eq_nil h h'
    exact ⟨(List.append_nil _).symm, rfl⟩
  · obtain rfl := eq_nil h' h
    exact ⟨List.append_nil _, rfl⟩

/-- The cut behind the next item that passes. -/
theorem next {skipped : List ρ} (h : Cut extract p items n before (item :: (skipped ++ rest)))
    (hskipped : (skipped.map extract).filter p = [])
    (hpasses : ∀ item ∈ rest.head?, p (extract item) = true) :
    Cut extract p items (n + 1) (before ++ [item] ++ skipped) rest where
  items_eq := by rw [h.items_eq, List.append_assoc, List.append_assoc, List.singleton_append]
  handed := by
    have hitem : p (extract item) = true := h.passes item rfl
    have hleft := h.left
    rw [List.map_cons, List.filter_cons_of_pos hitem] at hleft
    -- the items in between do not pass, so one value more lies in front of the cut
    rw [List.take_add, ← hleft, List.map_append, List.map_append, List.filter_append,
      List.filter_append, hskipped, h.handed, List.append_nil, List.map_singleton,
      List.filter_cons_of_pos hitem]
    rfl
  passes := hpasses

/-- At the end of the items the cut stays. -/
theorem stays (h : Cut extract p items n before []) :
    Cut extract p items (n + 1) before [] where
  items_eq := h.items_eq
  handed := by
    have hleft := h.left
    rw [List.map_nil, List.filter_nil] at hleft
    rw [List.take_add, ← hleft, List.take_nil, List.append_nil, h.handed]
  passes := h.passes

end Cut

/-! ## Pulling -/

/-- A scan stands at a cut of its items: it keeps the first one behind the cut ready.  Its
    source has been pulled for that one, or for the end, and no further. -/
structure Aligned (s : σ) (memory : ω) (before rest : List ρ) (scan : Scan sel) : Prop where
  lookahead : scan.lookahead = rest.head?.map sel.extract
  cursor : scan.cursor = sel.source.cursor (sel.source.after before.length s)
  state : scan.state = sel.source.after (before.length + 1) s
  memory : scan.memory = sel.filter.asked memory ((before ++ rest.take 1).map sel.extract)

/-- Pulling skips the items that do not pass. -/
theorem aligned_advance (memory : ω) (hp : sel.filter.Decides p)
    (h : sel.source.Gives (sel.source.after before.length s) rest)
    (finite : sel.source.Finite (sel.source.after before.length s)) :
    ∃ skipped rest', rest = skipped ++ rest' ∧ (skipped.map sel.extract).filter p = [] ∧
      (∀ item ∈ rest'.head?, p (sel.extract item) = true) ∧
      Aligned s memory (before ++ skipped) rest'
        (advance sel (sel.source.after before.length s)
          (sel.filter.asked memory (before.map sel.extract)) finite) := by
  -- along the items that are left; each one that does not pass moves in front of the cut
  induction rest generalizing before with
  | nil =>
    have hpull : sel.source.pull (sel.source.after before.length s) =
        (none, sel.source.after (before.length + 1) s) :=
      Prod.ext h (sel.source.after_succ _ s).symm
    refine ⟨[], [], rfl, rfl, nofun, ?_⟩
    rw [advance_of_none hpull, List.append_nil]
    exact ⟨rfl, rfl, rfl, by rw [List.take_nil, List.append_nil]⟩
  | cons item rest ih =>
    obtain ⟨hitem, hrest⟩ := h
    have hpull : sel.source.pull (sel.source.after before.length s) =
        (some item, sel.source.after (before.length + 1) s) :=
      Prod.ext hitem (sel.source.after_succ _ s).symm
    have htest : sel.filter.test (sel.extract item)
        (sel.filter.asked memory (before.map sel.extract)) =
        (p (sel.extract item),
          sel.filter.asked memory ((before ++ [item]).map sel.extract)) := by
      rw [List.map_append, List.map_singleton, Filter.asked_concat]
      exact Prod.ext (hp _ _) rfl
    cases hpasses : p (sel.extract item) with
    -- this item is kept ready, and nothing has been skipped
    | true =>
      refine ⟨[], item :: rest, rfl, rfl, ?_, ?_⟩
      · rintro _ ⟨⟩
        exact hpasses
      · rw [advance_of_true hpull (hpasses ▸ htest), List.append_nil]
        exact ⟨rfl, rfl, rfl, rfl⟩
    | false =>
      -- this item is skipped, so the scan goes on behind it
      have hlength : (before ++ [item]).length = before.length + 1 := List.length_append
      rw [← sel.source.after_succ, ← hlength] at hrest
      obtain ⟨skipped, rest', rfl, hnone, hready, haligned⟩ := ih hrest hrest.finite
      refine ⟨item :: skipped, rest', rfl, ?_, hready, ?_⟩
      · rw [List.map_cons, List.filter_cons_of_neg (by simp [hpasses]), hnone]
      · rw [advance_of_false hpull (hpasses ▸ htest), List.append_cons]
        simp only [hlength] at haligned
        exact haligned

/-! ## Calls -/

/-- What a scan can be called for. -/
inductive Call where
  | next
  | peek
  | hasNext
  | cursor
  | remove
deriving DecidableEq, Repr

/-- A scan behind a call.  Only `next` moves it. -/
def behind (scan : Scan sel) : Call → Scan sel
  | .next => scan.next.2
  | .peek | .hasNext | .cursor | .remove => scan

/-- A scan behind some calls, one after the other. -/
def behindAll (scan : Scan sel) (calls : List Call) : Scan sel := calls.foldl behind scan

/-- What the calls of `next` among some calls hand out. -/
def handed (scan : Scan sel) : List Call → List (Option τ)
  | [] => []
  | .next :: calls => scan.next.1 :: (scan.behind .next).handed calls
  | call :: calls => (scan.behind call).handed calls

variable {items : List ρ} {n : Nat}

/-- What is handed out next is the value kept ready, or nothing. -/
theorem next_fst_eq (scan : Scan sel) : scan.next.1 = scan.lookahead := by
  cases h : scan.lookahead with
  | none => rw [next_of_none h]
  | some value => exact next_fst h

/-- A scan that keeps a value ready goes on by pulling for the next one. -/
theorem next_of_some {value : τ} (h : scan.lookahead = some value) :
    ∃ finite, scan.next.2 = advance sel scan.state scan.memory finite := by
  unfold next
  split
  · next h' => cases h.symm.trans h'
  · exact ⟨scan.finite (by simp [h]), rfl⟩

/-- A scan stands at a cut with `n` values handed out. -/
def AlignedAt (sel : Selection σ ρ ω τ) (p : τ → Bool) (s : σ) (memory : ω) (items : List ρ)
    (n : Nat) (scan : Scan sel) : Prop :=
  ∃ before rest, Cut sel.extract p items n before rest ∧ Aligned s memory before rest scan

/-- A scan starts at the first cut: nothing has been handed out yet. -/
theorem alignedAt_start (hp : sel.filter.Decides p) (h : sel.source.Gives s items) (memory : ω) :
    AlignedAt sel p s memory items 0 (start sel s memory h.finite) := by
  have hstart : sel.source.Gives (sel.source.after ([] : List ρ).length s) items := h
  obtain ⟨skipped, rest, rfl, hnone, hready, haligned⟩ :=
    aligned_advance memory hp hstart hstart.finite
  exact ⟨skipped, rest, ⟨rfl, hnone.trans (List.take_zero).symm, hready⟩, haligned⟩

/-- Handing out a value moves a scan to the next cut. -/
theorem AlignedAt.next (hp : sel.filter.Decides p) (h : sel.source.Gives s items)
    (hscan : AlignedAt sel p s memory items n scan) :
    AlignedAt sel p s memory items (n + 1) scan.next.2 := by
  obtain ⟨before, rest, hcut, haligned⟩ := hscan
  cases rest with
  | nil =>
    -- at its end the scan stays as it is, and does not pull again
    rw [next_of_none haligned.lookahead]
    exact ⟨before, [], hcut.stays, haligned⟩
  | cons item rest =>
    obtain ⟨finite, hnext⟩ := next_of_some haligned.lookahead
    have hitems : items = before ++ [item] ++ rest := by
      rw [hcut.items_eq, List.append_assoc, List.singleton_append]
    have hlength : (before ++ [item]).length = before.length + 1 := List.length_append
    -- the next item that the filter accepts is searched for, and those in front of it are skipped
    obtain ⟨skipped, rest', rfl, hnone, hready, haligned'⟩ :=
      aligned_advance memory hp (hitems ▸ h).drop (hitems ▸ h).drop.finite
    refine ⟨before ++ [item] ++ skipped, rest', hcut.next hnone hready, ?_⟩
    have hstate : scan.state = sel.source.after (before ++ [item]).length s := by
      rw [haligned.state, hlength]
    have hmemory : scan.memory = sel.filter.asked memory ((before ++ [item]).map sel.extract) :=
      haligned.memory
    simp only [hnext, hstate, hmemory]
    exact haligned'

theorem behindAll_cons (scan : Scan sel) (call : Call) (calls : List Call) :
    scan.behindAll (call :: calls) = (scan.behind call).behindAll calls := rfl

/-- Calls move a scan by as many values as were asked for. -/
theorem AlignedAt.behindAll (hp : sel.filter.Decides p) (h : sel.source.Gives s items)
    (hscan : AlignedAt sel p s memory items n scan) (calls : List Call) :
    AlignedAt sel p s memory items (n + calls.count .next) (scan.behindAll calls) := by
  induction calls generalizing scan n with
  | nil => exact hscan
  | cons call calls ih =>
    rw [behindAll_cons]
    cases call with
    | next =>
      rw [List.count_cons_self, Nat.add_comm _ 1, ← Nat.add_assoc]
      exact ih (hscan.next hp h)
    -- all other calls leave the scan where it is
    | _ => exact ih hscan

/-- The values that are handed out are those that pass, in their order, and then none. -/
theorem AlignedAt.handed_eq (hp : sel.filter.Decides p) (h : sel.source.Gives s items)
    (hscan : AlignedAt sel p s memory items n scan) (calls : List Call) :
    scan.handed calls = (List.range' n (calls.count .next)).map fun i =>
      ((items.map sel.extract).filter p)[i]? := by
  induction calls generalizing scan n with
  | nil => rfl
  | cons call calls ih =>
    cases call with
    | next =>
      obtain ⟨before, rest, hcut, haligned⟩ := hscan
      rw [List.count_cons_self, List.range'_succ, List.map_cons, handed, next_fst_eq,
        haligned.lookahead, hcut.head?]
      exact congrArg _ (ih (AlignedAt.next hp h ⟨before, rest, hcut, haligned⟩))
    -- all other calls leave the scan where it is
    | _ => exact ih hscan

/-- Without a filter all items of a source are handed out, one by one. -/
theorem handed_everything {source : Source σ ρ} (h : source.Gives s items) (memory : ω)
    (calls : List Call) :
    (start (.everything source) s memory h.finite).handed calls =
      (List.range (calls.count .next)).map (items[·]?) := by
  have hp : (Filter.all : Filter ω ρ).Decides fun _ => true := Filter.decides_all
  have hstart : AlignedAt (.everything source) (fun _ => true) s memory items 0
      (start _ s memory h.finite) := alignedAt_start hp h memory
  have hvalues : ((items.map (Selection.everything source : Selection σ ρ ω ρ).extract).filter
      fun _ => true) = items :=
    (List.filter_eq_self.2 fun _ _ => rfl).trans (List.map_id items)
  rw [hstart.handed_eq hp h, hvalues, List.range_eq_range']

/-- A filter that records has seen the items up to the one kept ready, each of them once. -/
theorem memory_recording {source : Source σ ρ} {p : ρ → Bool} (h : source.Gives s items)
    (asked : List ρ) (calls : List Call) :
    ∃ before rest, Cut id p items (calls.count .next) before rest ∧
      ((start (.ofFilter source (.recording p)) s asked h.finite).behindAll calls).memory =
        asked ++ (before ++ rest.take 1) := by
  have hp : (Selection.ofFilter source (.recording p)).filter.Decides p :=
    Filter.decides_recording p
  obtain ⟨before, rest, hcut, haligned⟩ := (alignedAt_start hp h asked).behindAll hp h calls
  rw [Nat.zero_add] at hcut
  refine ⟨before, rest, hcut, ?_⟩
  rw [haligned.memory]
  exact (Filter.asked_recording ..).trans (congrArg (asked ++ ·) (List.map_id _))

/-- Behind any calls, a scan shows the next of the values that pass, at the cursor that the
    source reported in front of the pull for it, or for the end.  Up to that pull, and no
    further, the source has been pulled and the filter has been asked, once for every item
    and in their order. -/
theorem calls_exact {sel : Selection σ ρ ω τ} {p : τ → Bool} (hp : sel.filter.Decides p) {s : σ}
    {items : List ρ} (h : sel.source.Gives s items) (memory : ω) (calls : List Call) :
    let first := start sel s memory h.finite
    let counted := start sel.counted (s, 0) memory (h.finite.counted 0)
    let values := (items.map sel.extract).filter p
    let n := calls.count .next
    first.handed calls = (List.range n).map (values[·]?) ∧
      (first.behindAll calls).next.1 = values[n]? ∧
      (first.behindAll calls).peek = values[n]? ∧
      (first.behindAll calls).hasNext = (values[n]?).isSome ∧
      (first.behindAll calls).remove = .error (.unsupportedOperation "remove") ∧
      ∃ before rest, items = before ++ rest ∧
        (before.map sel.extract).filter p = values.take n ∧
        rest.head?.map sel.extract = values[n]? ∧
        (first.behindAll calls).cursor =
          sel.source.cursor (sel.source.after before.length s) ∧
        (first.behindAll calls).state = sel.source.after (before.length + 1) s ∧
        (counted.behindAll calls).state =
          (sel.source.after (before.length + 1) s, before.length + 1) ∧
        (first.behindAll calls).memory =
          sel.filter.asked memory ((before ++ rest.take 1).map sel.extract) := by
  intro first counted values n
  have hp' : sel.counted.filter.Decides p := hp
  have h' : sel.counted.source.Gives (s, 0) items := h.counted 0
  have hfirst : AlignedAt sel p s memory items 0 first := alignedAt_start hp h memory
  have hcounted : AlignedAt sel.counted p (s, 0) memory items 0 counted :=
    alignedAt_start hp' h' memory
  obtain ⟨before, rest, hcut, haligned⟩ := hfirst.behindAll hp h calls
  obtain ⟨before', rest', hcut', haligned'⟩ := hcounted.behindAll hp' h' calls
  -- counting the pulls does not move the cut
  rw [Nat.zero_add] at hcut hcut'
  obtain ⟨rfl, rfl⟩ := hcut.unique hcut'
  -- what is ready is the value behind those that were handed out
  have hready : (first.behindAll calls).lookahead = values[n]? :=
    haligned.lookahead.trans hcut.head?
  refine ⟨?_, ?_, hready, ?_, rfl, before, rest, hcut.items_eq, hcut.handed, hcut.head?,
    haligned.cursor, haligned.state, ?_, haligned.memory⟩
  · rw [hfirst.handed_eq hp h, List.range_eq_range']
  · rw [next_fst_eq, hready]
  · rw [hasNext, hready]
  · rw [haligned'.state]
    exact (sel.source.after_counted _ 0 s).trans (by rw [Nat.zero_add])

/-- A list that goes on behind a pull without an item. -/
def interrupted : List (Option Nat) := [some 3, some 4, some 5, none, some 6]

/-- The even numbers of a list, with every number that was looked at. -/
def evens : Selection Nat Nat (List Nat) Nat :=
  .ofFilter (.ofList interrupted) (.recording fun x => x % 2 == 0)

/-- A scan that looks for even numbers finds one in front of the interruption, and has asked for
    every number up to there. -/
theorem calls_exact_interrupted :
    let calls : List Call := [.hasNext, .next, .peek, .remove, .next, .cursor]
    let first := start evens 0 [] (Source.finite_ofList interrupted 0)
    let counted := start evens.counted (0, 0) [] ((Source.finite_ofList interrupted 0).counted 0)
    first.handed calls = [some 4, none] ∧ (first.behindAll calls).hasNext = false ∧
      (first.behindAll calls).cursor = ⟨"3"⟩ ∧ (counted.behindAll calls).state = (4, 4) ∧
      (first.behindAll calls).memory = [3, 4, 5] := by
  intro calls first counted
  have hgives : evens.source.Gives 0 [3, 4, 5] := ⟨rfl, rfl, rfl, rfl⟩
  obtain ⟨hhanded, -, -, hhasNext, -, before, rest, hitems, -, hhead, hcursor, -, hcounted,
    hmemory⟩ := calls_exact (Filter.decides_recording _) hgives [] calls
  -- nothing is left, so all three numbers lie in front of the cut
  obtain rfl : rest = [] := List.head?_eq_none_iff.1 (Option.map_eq_none_iff.1 hhead)
  obtain rfl : before = [3, 4, 5] := (hitems.trans (List.append_nil _)).symm
  exact ⟨hhanded, hhasNext, hcursor, hcounted, hmemory⟩

end Scan

end EntityStore
