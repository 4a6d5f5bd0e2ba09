import EntityStore.Json.RecordText
import EntityStore.Proofs.Json.ReadBack

/-! # Values read back

A value is written as a text, and the text means the same value again.  For that its whole
numbers have to lie in the range that is read exactly, its objects list their members by name,
and it must not be nested too deep.  Decimals are left out: their text does not tell how they
were given.

The fields of a record come back from the members of an object in whatever order these are.

* `Json.Plain`                  values without decimals, nested up to a depth
* `Json.ofFields_of_pairwise`   members that come by name stay as they are
* `Json.ofText?_toText`         the text of a plain value means that value
* `RecordText.assign?_toMembers`  a record finds each of its fields among some members -/

namespace EntityStore

/-! ## Whole numbers -/

namespace Numeral

/-- Whole numbers of 64 bits, with or without a sign, are read exactly. -/
theorem toJson?_int {n : Int} (hleast : -0x8000000000000000 ≤ n)
    (hgreatest : n < 0x10000000000000000) :
    toJson? ⟨decide (n < 0), n.natAbs, 0, none⟩ = some (.int n) := by
  have hsize : UInt64.size = 0x10000000000000000 := rfl
  -- a number below zero has the bound of its own
  by_cases hn : n < 0
  · have hvalue : -(n.natAbs : Int) = n := by omega
    simp only [toJson?, isWhole, hn, hvalue]
    rw [if_neg (by simp), if_pos ⟨by simp, by simp, by omega, by omega⟩]
  · have hvalue : (n.natAbs : Int) = n := by omega
    simp only [toJson?, isWhole, hn, hvalue]
    rw [if_pos ⟨by simp, by simp, by omega⟩]

end Numeral

/-- A size is read back as a size. -/
theorem JsonText.uint32?_ofUInt32 (n : UInt32) : (Json.ofUInt32 n).toText.uint32? = some n := by
  have hsign : ¬ ((n.toNat : Int) < 0) := by omega
  have hdigits : (n.toNat : Int).natAbs = n.toNat := Int.natAbs_natCast _
  simp [Json.ofUInt32, Json.toText, uint32?, Numeral.isWhole, hsign, hdigits, n.toNat_lt]

namespace Json

/-! ## Objects -/

/-- A member with a larger name comes behind the others. -/
theorem insertField_of_lt {name : String} {fields : List (String × Json)}
    (h : ∀ p ∈ fields, p.1 < name) (v : Json) :
    insertField name v fields = fields ++ [(name, v)] := by
  induction fields with
  | nil => rfl
  | cons p fields ih =>
    obtain ⟨hp, hfields⟩ := List.forall_mem_cons.1 h
    have hgt : compare name p.1 = .gt := Std.OrientedCmp.gt_iff_lt.2 (compareOfLessAndEq_eq_lt.2 hp)
    rw [insertField, hgt]
    simp only [List.cons_append, ih hfields]

/-- Members that come by name are placed behind those that are placed already. -/
private theorem foldl_insertField {placed fields : List (String × Json)}
    (h : (placed ++ fields).Pairwise fun a b => a.1 < b.1) :
    fields.foldl (fun acc p => insertField p.1 p.2 acc) placed = placed ++ fields := by
  induction fields generalizing placed with
  | nil => rw [List.foldl_nil, List.append_nil]
  | cons p fields ih =>
    -- the next name comes behind all that are placed
    have hbefore : ∀ q ∈ placed, q.1 < p.1 := fun q hq =>
      (List.pairwise_append.1 h).2.2 q hq p List.mem_cons_self
    rw [List.append_cons] at h
    rw [List.foldl_cons, insertField_of_lt hbefore, ih h, List.append_assoc]
    rfl

/-- Members that come by name stay as they are. -/
theorem ofFields_of_pairwise {fields : List (String × Json)}
    (h : fields.Pairwise fun a b => a.1 < b.1) : ofFields fields = .obj fields :=
  congrArg obj (@foldl_insertField [] fields h)

/-! ## Values -/

/-- Values without decimals that are nested up to a depth. -/
inductive Plain : Nat → Json → Prop where
  | null {depth} : Plain depth .null
  | bool {depth} (b : Bool) : Plain depth (.bool b)
  | int {depth} {n : Int} (least : -0x8000000000000000 ≤ n) (greatest : n < 0x10000000000000000) :
      Plain depth (.int n)
  | str {depth} (s : String) : Plain depth (.str s)
  | arr {depth} {items : List Json} (items_plain : ∀ v ∈ items, Plain depth v) :
      Plain (depth + 1) (.arr items)
  /-- The members come by name, each name once. -/
  | obj {depth} {fields : List (String × Json)} (sorted : fields.Pairwise fun a b => a.1 < b.1)
      (fields_plain : ∀ p ∈ fields, Plain depth p.2) : Plain (depth + 1) (.obj fields)

/-- The items of an array mean what each of them means. -/
theorem ofItems?_toItems {depth : Nat} {vs : List Json}
    (h : ∀ v ∈ vs, ofText? depth v.toText = some v) :
    ofItems? depth (toItems vs) = some vs := by
  induction vs with
  | nil => rfl
  | cons v vs ih =>
    obtain ⟨hv, hvs⟩ := List.forall_mem_cons.1 h
    rw [toItems, ofItems?, hv, ih hvs]
    rfl

/-- The members of an object mean what the value of each means. -/
theorem ofMembers?_toMembers {depth : Nat} {fields : List (String × Json)}
    (h : ∀ p ∈ fields, ofText? depth p.2.toText = some p.2) :
    ofMembers? depth (toMembers fields) = some fields := by
  induction fields with
  | nil => rfl
  | cons p fields ih =>
    obtain ⟨hp, hfields⟩ := List.forall_mem_cons.1 h
    rw [toMembers, ofMembers?, StringLiteral.toString?_ofString, hp, ih hfields]
    rfl

/-- The text of a plain value means that value, wherever there is room for its nesting. -/
theorem ofText?_toText {depth depth' : Nat} {v : Json} (h : Plain depth v) (hle : depth ≤ depth') :
    ofText? depth' v.toText = some v := by
  induction h generalizing depth' with
  | null => rw [toText, ofText?]
  | bool b => rw [toText, ofText?]
  | int least greatest => rw [toText, ofText?, Numeral.toJson?_int least greatest]
  | str s => rw [toText, ofText?, StringLiteral.toString?_ofString, Option.map_some]
  -- an array takes one level of the nesting that there is room for
  | arr _ ih =>
    have hitems := ofItems?_toItems fun v hv => ih v hv (Nat.le_sub_of_add_le hle)
    rw [toText, ofText?, if_neg (Nat.ne_of_gt (Nat.lt_of_lt_of_le (Nat.succ_pos _) hle)), hitems]
    rfl
  | obj sorted _ ih =>
    have hfields := ofMembers?_toMembers fun p hp => ih p hp (Nat.le_sub_of_add_le hle)
    rw [toText, ofText?, if_neg (Nat.ne_of_gt (Nat.lt_of_lt_of_le (Nat.succ_pos _) hle)), hfields,
      -- the names are in order, so none of them is put elsewhere
      Option.map_some, ofFields_of_pairwise sorted]

end Json

/-! ## Fields of a record -/

namespace RecordText

/-- A name is not looked up behind a member of another name. -/
private theorem lookup_cons_of_ne {name name' : String} (h : name' ≠ name) (v : Json)
    (fields : List (String × Json)) : ((name, v) :: fields).lookup name' = fields.lookup name' := by
  rw [List.lookup_cons, beq_eq_false_iff_ne.2 h]

private theorem lookup_of_not_mem {name : String} {fields : List (String × Json)}
    (h : name ∉ fields.map Prod.fst) : fields.lookup name = none := by
  rw [List.lookup_eq_none_iff]
  intro p hp
  rw [bne_iff_ne]
  rintro rfl
  exact h (List.mem_map_of_mem hp)

/-- A record finds each of its fields among the members of an object, if no name is there
    twice. -/
theorem assign?_toMembers {names : List String} (hnames : names.Nodup)
    {fields : List (String × Json)} (hfields : (fields.map Prod.fst).Nodup) :
    assign? names (Json.toMembers fields) =
      some (names.map fun name => (fields.lookup name).map Json.toText) := by
  induction fields with
  | nil => rfl
  | cons p fields ih =>
    obtain ⟨name, value⟩ := p
    obtain ⟨hname, hrest⟩ := List.nodup_cons.1 hfields
    simp only [Json.toMembers, assign?, StringLiteral.toString?_ofString, ih hrest,
      Option.bind_eq_bind, Option.bind_some]
    cases hi : names.idxOf? name with
    | none =>
      -- nobody asks for the member
      have hnot : name ∉ names := List.idxOf?_eq_none_iff.1 hi
      refine congrArg some (List.map_congr_left fun name' hname' => ?_)
      rw [lookup_cons_of_ne (ne_of_mem_of_not_mem hname' hnot)]
    | some i =>
      -- the member is the only one for its field
      obtain ⟨hlt, hat, -⟩ := List.idxOf?_eq_some_iff.1 hi
      have hfree : (names.map fun name' => (fields.lookup name').map Json.toText)[i]? =
          some none := by
        rw [List.getElem?_map, List.getElem?_eq_getElem hlt, hat, Option.map_some,
          lookup_of_not_mem hname, Option.map_none]
      simp only [hfree]
      refine congrArg some (List.ext_getElem? fun j => ?_)
      rw [List.getElem?_set, List.getElem?_map, List.getElem?_map, List.length_map]
      by_cases hij : i = j
      · subst hij
        rw [if_pos rfl, if_pos hlt, List.getElem?_eq_getElem hlt, hat, Option.map_some,
          List.lookup_cons_self, Option.map_some]
      · rw [if_neg hij]
        cases hj : names[j]? with
        | none => rfl
        | some name' =>
          -- another field asks for another name
          have hne : name' ≠ name := by
            rintro rfl
            rw [← hat, ← List.getElem?_eq_getElem hlt] at hj
            exact hij ((List.getElem?_inj hlt hnames).1 hj.symm)
          rw [Option.map_some, Option.map_some, lookup_cons_of_ne hne]

end RecordText

end EntityStore
