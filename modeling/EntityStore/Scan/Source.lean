import EntityStore.Page.Cursor

/-! # Sources of raw results

A source hands out items one by one and can tell at any time the cursor of the item that
it would hand out next.  It need not stay at its end: after a pull without an item there
may be items again.

`Source.Finite` says that a source comes to a pull without an item after finitely many
items.  Recursion along the pulls of such a source ends; `Finite.wrap` is what it recurses
on. -/

namespace EntityStore

/-- A sequence of raw items that is pulled one by one; `σ` holds how far it has come. -/
structure Source (σ ρ : Type) where
  /-- The place of the item that the next pull gives. -/
  cursor : σ → Cursor
  /-- The next item, if there is one, and the state behind it. -/
  pull : σ → Option ρ × σ

namespace Source

variable {σ ρ : Type}

/-- `source.Next t s` says that a pull in state `s` gives an item and leads to state `t`. -/
def Next (source : Source σ ρ) (t s : σ) : Prop := ∃ item, source.pull s = (some item, t)

/-- A state from which a pull without an item is reached after finitely many items. -/
def Finite (source : Source σ ρ) (s : σ) : Prop := Acc source.Next s

namespace Finite

variable {source : Source σ ρ} {s t : σ}

/-- What is left of a finite source behind an item is finite. -/
theorem of_pull (h : source.Finite s) {item : ρ} (hp : source.pull s = (some item, t)) :
    source.Finite t :=
  h.inv ⟨item, hp⟩

/-- A source without an item to give is finite. -/
theorem of_pull_none (hp : source.pull s = (none, t)) : source.Finite s :=
  Acc.intro s fun _ ⟨_, h⟩ => by simp [hp] at h

/-- Induction along the items of a finite source. -/
theorem induction {motive : σ → Prop} (h : source.Finite s)
    (step : ∀ s, source.Finite s →
      (∀ item t, source.pull s = (some item, t) → motive t) → motive s) : motive s := by
  have h' : Acc source.Next s := h
  induction h' with
  | intro s hacc ih =>
    exact step s h fun item t hp => ih t ⟨item, hp⟩ (h.of_pull hp)

/-- A finite state as a member of a well-founded type. -/
def wrap (h : source.Finite s) : { s : σ // Acc source.Next s } := ⟨s, h⟩

/-- A quantity that gets smaller with every item makes every state finite. -/
theorem of_measure (size : σ → Nat)
    (h : ∀ s item t, source.pull s = (some item, t) → size t < size s) (s : σ) :
    source.Finite s :=
  (Subrelation.wf (fun {t s} ⟨item, hp⟩ => h s item t hp) (measure size).wf).apply s

end Finite

/-! ## Lists as sources -/

/-- The items of a list, with the position as the cursor.  An entry may hold no item: the
    pull at its place gives nothing and yet moves on.  Behind the list nothing moves. -/
def ofList (entries : List (Option ρ)) : Source Nat ρ where
  cursor position := ⟨toString position⟩
  pull position :=
    match entries[position]? with
    | some entry => (entry, position + 1)
    | none => (none, position)

/-- A list is used up by pulls, wherever they start. -/
theorem finite_ofList (entries : List (Option ρ)) (position : Nat) :
    (ofList entries).Finite position := by
  refine Finite.of_measure (fun p => entries.length - p) (fun p item t h => ?_) position
  simp only [ofList] at h
  split at h
  · next entry he =>
    obtain ⟨_, rfl⟩ := Prod.mk.inj h
    have := (List.getElem?_eq_some_iff.1 he).1
    omega
  · simp at h

/-! ## Counting pulls -/

/-- A source that counts its pulls. -/
def counted (source : Source σ ρ) : Source (σ × Nat) ρ where
  cursor s := source.cursor s.1
  pull s :=
    let (item, t) := source.pull s.1
    (item, (t, s.2 + 1))

/-- Counting its pulls does not make a source endless. -/
theorem Finite.counted {source : Source σ ρ} {s : σ} (h : source.Finite s) (n : Nat) :
    source.counted.Finite (s, n) := by
  induction h generalizing n with
  | intro s _ ih =>
    refine Acc.intro _ fun ⟨t, m⟩ ⟨item, hp⟩ => ?_
    obtain ⟨hi, ht, rfl⟩ : (source.pull s).1 = some item ∧ (source.pull s).2 = t ∧ n + 1 = m := by
      simpa [Source.counted] using hp
    exact ih t ⟨item, Prod.ext hi ht⟩ (n + 1)

end Source

end EntityStore
