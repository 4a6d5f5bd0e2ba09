import EntityStore.Kind.Catalog
import Mathlib.Data.Finset.Card
import Mathlib.Data.List.Induction

/-! # Which kind a name stands for

A catalog has one table for type paths and kind names.  A type path takes its entry whatever
stands there, a kind name only if nothing does, so after any number of additions a name stands
for the kind that was last added with this type path, and if there is none for the one that was
first added with this kind name.

* `Catalog.getElem?_ofList`  the entry of a name after kinds have been added
* `Catalog.mem_ofList`       the names that are known then
* `Catalog.resolve_exact`    what follows for look-ups, for the size and for the order -/

namespace EntityStore

namespace Catalog

/-- The kind that a name stands for among kinds in the order in which they were added: the last
    one with this type path, or else the first one with this kind name. -/
def named? (kinds : List Kind) (name : String) : Option Kind :=
  (kinds.reverse.find? fun kind => kind.typeName = name).or
    (kinds.find? fun kind => kind.name = name)

/-! ## Entries -/

/-- A type path takes its entry; a kind name takes one that is free. -/
theorem getElem?_add (catalog : Catalog) (kind : Kind) (name : String) :
    (catalog.add kind).byName[name]? =
      if kind.typeName = name then some kind
      else catalog.byName[name]?.or (if kind.name = name then some kind else none) := by
  rw [add, Std.ExtTreeMap.getElem?_insertIfNew, Std.ExtTreeMap.getElem?_insert]
  simp only [Std.ExtTreeMap.mem_insert, Std.LawfulEqOrd.compare_eq_iff_eq]
  -- the type path goes in first, so a kind name that equals it finds its entry taken
  by_cases htype : kind.typeName = name
  · subst htype
    by_cases hname : kind.name = kind.typeName <;> simp [hname]
  · by_cases hname : kind.name = name
    · subst hname
      cases hentry : catalog.byName[kind.name]? with
      | none => simp [htype, Std.ExtTreeMap.mem_iff_isSome_getElem?, hentry]
      | some other => simp [htype, Std.ExtTreeMap.mem_iff_isSome_getElem?, hentry]
    · simp [htype, hname]

/-- The last kind of a list is added last. -/
theorem ofList_concat (kinds : List Kind) (kind : Kind) :
    ofList (kinds ++ [kind]) = (ofList kinds).add kind := by
  rw [ofList, List.foldl_append]
  rfl

/-- A further kind takes its own path over, and its kind name if no kind has it yet. -/
theorem named?_concat (kinds : List Kind) (kind : Kind) (name : String) :
    named? (kinds ++ [kind]) name =
      if kind.typeName = name then some kind
      else (named? kinds name).or (if kind.name = name then some kind else none) := by
  rw [named?, List.reverse_concat, List.find?_cons, List.find?_append, List.find?_singleton]
  by_cases htype : kind.typeName = name
  · simp [htype]
  · simp [htype, named?, Option.or_assoc]

/-- The entry of a name after kinds have been added. -/
theorem getElem?_ofList (kinds : List Kind) (name : String) :
    (ofList kinds).byName[name]? = named? kinds name := by
  induction kinds using List.reverseRecOn with
  | nil => exact Std.ExtTreeMap.getElem?_empty
  | append_singleton kinds kind ih =>
    rw [ofList_concat, getElem?_add, named?_concat, ih]

/-- A catalog answers what its list of additions says about a name. -/
theorem resolve_ofList (kinds : List Kind) (name : String) :
    (ofList kinds).resolve name = (named? kinds name).elim (.error ⟨name⟩) .ok := by
  rw [resolve, getElem?_ofList]
  cases named? kinds name <;> rfl

/-! ## Names -/

/-- A name stands for something if a kind has it as its path or its name. -/
theorem isSome_named? (kinds : List Kind) (name : String) :
    (named? kinds name).isSome ↔ ∃ kind ∈ kinds, kind.typeName = name ∨ kind.name = name := by
  rw [named?, Option.isSome_or, Bool.or_eq_true, List.find?_isSome, List.find?_isSome]
  simp only [List.mem_reverse, decide_eq_true_eq]
  constructor
  · rintro (⟨kind, hkind, h⟩ | ⟨kind, hkind, h⟩)
    · exact ⟨kind, hkind, .inl h⟩
    · exact ⟨kind, hkind, .inr h⟩
  · rintro ⟨kind, hkind, h | h⟩
    · exact .inl ⟨kind, hkind, h⟩
    · exact .inr ⟨kind, hkind, h⟩

/-- The names that are known: the type paths and the kind names of what has been added. -/
theorem mem_ofList (kinds : List Kind) (name : String) :
    name ∈ (ofList kinds).byName ↔ name ∈ kinds.map Kind.typeName ++ kinds.map Kind.name := by
  rw [Std.ExtTreeMap.mem_iff_isSome_getElem?, getElem?_ofList, isSome_named?, List.mem_append,
    List.mem_map, List.mem_map]
  constructor
  · rintro ⟨kind, hkind, h | h⟩
    · exact .inl ⟨kind, hkind, h⟩
    · exact .inr ⟨kind, hkind, h⟩
  · rintro (⟨kind, hkind, h⟩ | ⟨kind, hkind, h⟩)
    · exact ⟨kind, hkind, .inl h⟩
    · exact ⟨kind, hkind, .inr h⟩

/-- A catalog holds every path and every kind name once. -/
theorem size_ofList (kinds : List Kind) :
    (ofList kinds).size = (kinds.map Kind.typeName ++ kinds.map Kind.name).toFinset.card := by
  rw [size, ← Std.ExtTreeMap.length_keys,
    ← List.toFinset_card_of_nodup Std.ExtTreeMap.nodup_keys]
  congr 1
  ext name
  rw [List.mem_toFinset, List.mem_toFinset, Std.ExtTreeMap.mem_keys, mem_ofList]

/-! ## Look-ups -/

/-- A kind is found under its type path if no other kind has it. -/
theorem named?_typeName {kinds : List Kind} {kind : Kind} (hmem : kind ∈ kinds)
    (hunique : ∀ other ∈ kinds, other.typeName = kind.typeName → other = kind) :
    named? kinds kind.typeName = some kind := by
  rw [named?]
  cases hfind : kinds.reverse.find? fun other => other.typeName = kind.typeName with
  | none =>
    have hnone := List.find?_eq_none.1 hfind kind (List.mem_reverse.2 hmem)
    simp at hnone
  | some other =>
    -- what is found from the end has the path, so it is this kind
    have hpath : other.typeName = kind.typeName := by simpa using List.find?_some hfind
    have hother := List.mem_reverse.1 (List.mem_of_find?_eq_some hfind)
    rw [Option.some_or, hunique other hother hpath]

/-- What is found first does not hang on the order if there is only one thing to find. -/
theorem find?_congr_of_unique {p : Kind → Bool} {kinds kinds' : List Kind}
    (hunique : ∀ k ∈ kinds, ∀ l ∈ kinds, p k = true → p l = true → k = l)
    (hsame : ∀ k, k ∈ kinds' ↔ k ∈ kinds) : kinds'.find? p = kinds.find? p := by
  cases hfind : kinds.find? p with
  | none =>
    rw [List.find?_eq_none] at hfind ⊢
    exact fun k hk => hfind k ((hsame k).1 hk)
  | some k =>
    have hk := List.mem_of_find?_eq_some hfind
    have hpk := List.find?_some hfind
    cases hfind' : kinds'.find? p with
    | none => exact absurd hpk (List.find?_eq_none.1 hfind' k ((hsame k).2 hk))
    | some l =>
      -- both lists have something to find, and there is only one thing
      have hl := (hsame l).1 (List.mem_of_find?_eq_some hfind')
      rw [hunique k hk l hl hpk (List.find?_some hfind')]

/-- The order of additions is of no matter among kinds that share no names. -/
theorem named?_congr {kinds kinds' : List Kind}
    (hdistinct : ∀ k ∈ kinds, ∀ l ∈ kinds, k ≠ l → k.name ≠ l.name ∧ k.typeName ≠ l.typeName)
    (hsame : ∀ k, k ∈ kinds' ↔ k ∈ kinds) (name : String) :
    named? kinds' name = named? kinds name := by
  have hname {k l : Kind} (hk : k ∈ kinds) (hl : l ∈ kinds) (h : k.name = l.name) : k = l :=
    Classical.byContradiction fun hne => (hdistinct k hk l hl hne).1 h
  have htype {k l : Kind} (hk : k ∈ kinds) (hl : l ∈ kinds) (h : k.typeName = l.typeName) :
      k = l :=
    Classical.byContradiction fun hne => (hdistinct k hk l hl hne).2 h
  rw [named?, named?]
  congr 1
  · -- by type path, from the last addition on
    refine find?_congr_of_unique ?_ (by simpa using hsame)
    intro k hk l hl hpk hpl
    rw [List.mem_reverse] at hk hl
    exact htype hk hl ((of_decide_eq_true hpk).trans (of_decide_eq_true hpl).symm)
  · -- by kind name, from the first addition on
    refine find?_congr_of_unique ?_ hsame
    intro k hk l hl hpk hpl
    exact hname hk hl ((of_decide_eq_true hpk).trans (of_decide_eq_true hpl).symm)

/-- A name stands for the kind last added under this type path, or else for the one first added
    under this kind name. -/
theorem resolve_exact (kinds : List Kind) :
    (∀ name, (ofList kinds).resolve name =
      (named? kinds name).elim (.error ⟨name⟩) .ok) ∧
    ((∀ k ∈ kinds, ∀ l ∈ kinds, k ≠ l → k.typeName ≠ l.typeName) →
      ∀ kind ∈ kinds, (ofList kinds).resolve kind.typeName = .ok kind) ∧
    (ofList kinds).size = (kinds.map Kind.typeName ++ kinds.map Kind.name).toFinset.card ∧
    ((∀ k ∈ kinds, ∀ l ∈ kinds, k ≠ l → k.name ≠ l.name ∧ k.typeName ≠ l.typeName) →
      ∀ kinds' : List Kind, (∀ k, k ∈ kinds' ↔ k ∈ kinds) →
        ∀ name, (ofList kinds').resolve name = (ofList kinds).resolve name) := by
  refine ⟨resolve_ofList kinds, ?_, size_ofList kinds, ?_⟩
  · intro hpaths kind hkind
    -- among kinds of different paths a path has one kind only
    have hunique (other : Kind) (hother : other ∈ kinds)
        (h : other.typeName = kind.typeName) : other = kind :=
      Classical.byContradiction fun hne => hpaths other hother kind hkind hne h
    rw [resolve_ofList, named?_typeName hkind hunique, Option.elim_some]
  · intro hdistinct kinds' hsame name
    rw [resolve_ofList, resolve_ofList, named?_congr hdistinct hsame]

/-- The path of one type is the kind name of another, and two types have one kind name. -/
def crossed : List Kind :=
  [⟨"shop::Order", "legacy::Order"⟩, ⟨"Order", "shop::Order"⟩, ⟨"Order", "bakery::Order"⟩]

/-- Each is found under its own path, in whichever order they came; the kind name went to the
    first. -/
theorem resolve_exact_crossed :
    (ofList crossed).resolve "shop::Order" = .ok ⟨"Order", "shop::Order"⟩ ∧
      (ofList crossed.reverse).resolve "shop::Order" = .ok ⟨"Order", "shop::Order"⟩ ∧
      (ofList crossed).resolve "Order" = .ok ⟨"Order", "shop::Order"⟩ ∧
      (ofList (crossed.take 2).reverse).resolve "Order" =
        (ofList (crossed.take 2)).resolve "Order" ∧
      (ofList crossed).size = 4 := by
  have hcrossed := resolve_exact crossed
  refine ⟨hcrossed.2.1 (by decide) ⟨"Order", "shop::Order"⟩ (by decide),
    (resolve_exact crossed.reverse).2.1 (by decide) ⟨"Order", "shop::Order"⟩ (by decide),
    (hcrossed.1 "Order").trans (by decide),
    (resolve_exact (crossed.take 2)).2.2.2 (by decide) (crossed.take 2).reverse
      (fun _ => List.mem_reverse) "Order",
    hcrossed.2.2.1.trans (by decide)⟩

end Catalog

end EntityStore
