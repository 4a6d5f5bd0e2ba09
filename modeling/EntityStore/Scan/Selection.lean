import EntityStore.Scan.Source

/-! # Selections

A selection says what a scan looks at: the items of a source, the value in each item, and a
filter on these values.  A filter may remember what it was asked, which makes the number and
the order of its questions visible. -/

namespace EntityStore

/-- A test on values that carries a memory of type `ω` from one question to the next. -/
structure Filter (ω τ : Type) where
  test : τ → ω → Bool × ω

namespace Filter

variable {τ : Type}

/-- The filter of a predicate. -/
def ofPred (p : τ → Bool) : Filter Unit τ := ⟨fun x m => (p x, m)⟩

/-- The filter of a predicate that remembers the values it was asked about, in order. -/
def recording (p : τ → Bool) : Filter (List τ) τ := ⟨fun x asked => (p x, asked ++ [x])⟩

/-- The filter that lets everything pass. -/
def all {ω : Type} : Filter ω τ := ⟨fun _ m => (true, m)⟩

end Filter

/-- The items of a source, the value in each, and the test on it. -/
structure Selection (σ ρ ω τ : Type) where
  source : Source σ ρ
  extract : ρ → τ
  filter : Filter ω τ

namespace Selection

variable {σ ρ ω : Type}

/-- The items of a source that pass a filter. -/
def ofFilter (source : Source σ ρ) (filter : Filter ω ρ) : Selection σ ρ ω ρ :=
  ⟨source, id, filter⟩

/-- All items of a source. -/
def everything (source : Source σ ρ) : Selection σ ρ ω ρ := ofFilter source .all

end Selection

end EntityStore
