import EntityStore.Proofs.Json.Literal

/-! # JSON texts read back

The text that `Json.render` writes is read by `JsonText.parse?` as the very tree it was
printed from.  The reader of a sequence is followed for any kind of items; what it asks of
them is that each reads back in front of a comma or a closing bracket.

* `JsonText.readItems_print`   a sequence reads back if its items do
* `JsonText.readValue_print`   a value reads back, with the bytes behind it left over
* `JsonText.parse?_render`     a whole text reads back -/

namespace EntityStore

namespace JsonText

/-! ## Where a value starts and ends -/

/-- Bytes that start an item: neither a blank nor a closing bracket. -/
def OpensItem (bytes : Bytes) : Prop :=
  ∃ b rest, bytes = b :: rest ∧ isBlank b = false ∧ b ≠ ']'.toUInt8 ∧ b ≠ '}'.toUInt8

/-- The two brackets that close a sequence. -/
def IsClose (b : UInt8) : Prop := b = ']'.toUInt8 ∨ b = '}'.toUInt8

theorem endsNumeral_nil : EndsNumeral [] := nofun

theorem endsNumeral_comma (bytes : Bytes) : EndsNumeral (','.toUInt8 :: bytes) := by
  rintro b ⟨⟩
  decide

theorem endsNumeral_close {b : UInt8} (h : IsClose b) (bytes : Bytes) :
    EndsNumeral (b :: bytes) := by
  rintro _ ⟨⟩
  rcases h with rfl | rfl <;> decide

theorem skipBlanks_cons {b : UInt8} (h : isBlank b = false) (bytes : Bytes) :
    skipBlanks (b :: bytes) = b :: bytes := by
  rw [skipBlanks, List.dropWhile_cons, h]
  rfl

theorem OpensItem.append {bytes : Bytes} (h : OpensItem bytes) (more : Bytes) :
    OpensItem (bytes ++ more) := by
  obtain ⟨b, rest, rfl, hb⟩ := h
  exact ⟨b, rest ++ more, rfl, hb⟩

theorem OpensItem.skipBlanks {bytes : Bytes} (h : OpensItem bytes) :
    skipBlanks bytes = bytes := by
  obtain ⟨b, rest, rfl, hb, -⟩ := h
  exact skipBlanks_cons hb rest

theorem OpensItem.length_pos {bytes : Bytes} (h : OpensItem bytes) : 0 < bytes.length := by
  obtain ⟨b, rest, rfl, -⟩ := h
  exact Nat.succ_pos _

/-! ## Sequences -/

/-- The reader `item` reads `x` from the bytes `p x`, in front of anything that does not
    continue a numeral. -/
def ReadsBack {α : Type} (item : Reader α) (p : α → Bytes) (x : α) : Prop :=
  ∀ bytes, EndsNumeral bytes → item (p x ++ bytes) = some (x, bytes)

/-- Items with a comma between them. -/
def separated {α : Type} (p : α → Bytes) : List α → Bytes
  | [] => []
  | x :: xs => p x ++ xs.flatMap fun y => ','.toUInt8 :: p y

section Sequence

variable {α : Type} {item : Reader α} {p : α → Bytes} {close : UInt8}

/-- Behind an item stands a comma or the closing bracket, so a numeral ends there. -/
private theorem endsNumeral_more (hclose : IsClose close) (xs : List α) (bytes : Bytes) :
    EndsNumeral ((xs.flatMap fun y => ','.toUInt8 :: p y) ++ close :: bytes) := by
  cases xs with
  | nil => exact endsNumeral_close hclose bytes
  | cons x xs => exact endsNumeral_comma _

/-- Items with a comma in front of each are read up to the closing bracket. -/
theorem readMore_print (hclose : IsClose close) (xs : List α)
    (hback : ∀ x ∈ xs, ReadsBack item p x) (hopen : ∀ x ∈ xs, OpensItem (p x)) {fuel : Nat}
    (hfuel : xs.length < fuel) (bytes : Bytes) :
    readMore item close fuel ((xs.flatMap fun y => ','.toUInt8 :: p y) ++ close :: bytes) =
      some (xs, bytes) := by
  induction xs generalizing fuel with
  | nil =>
    obtain ⟨fuel, rfl⟩ := Nat.exists_eq_add_of_lt hfuel
    -- the closing bracket is neither a blank nor a comma
    have hblank : isBlank close = false := by rcases hclose with rfl | rfl <;> decide
    rw [List.flatMap_nil, List.nil_append, readMore, skipBlanks_cons hblank]
    simp only [if_true]
  | cons x xs ih =>
    obtain ⟨fuel, rfl⟩ := Nat.exists_eq_succ_of_ne_zero (Nat.ne_zero_of_lt hfuel)
    have hcomma : ¬ ','.toUInt8 = close := by rcases hclose with rfl | rfl <;> decide
    -- no blank stands in front of an item, and what follows it ends a numeral
    have hskip := ((hopen x List.mem_cons_self).append
      ((xs.flatMap fun y => ','.toUInt8 :: p y) ++ close :: bytes)).skipBlanks
    have hitem := hback x List.mem_cons_self _ (endsNumeral_more (p := p) hclose xs bytes)
    have htail := ih (fun y hy => hback y (List.mem_cons_of_mem x hy))
      (fun y hy => hopen y (List.mem_cons_of_mem x hy)) (Nat.lt_of_succ_lt_succ hfuel)
    rw [List.flatMap_cons, List.cons_append, List.cons_append, List.append_assoc, readMore,
      skipBlanks_cons (by decide)]
    simp only [if_neg hcomma, if_true, hskip, hitem, htail, Option.bind_eq_bind,
      Option.bind_some, Option.pure_def]

/-- Every item behind the first one takes a comma. -/
private theorem length_le_more (p : α → Bytes) (xs : List α) :
    xs.length ≤ (xs.flatMap fun y => ','.toUInt8 :: p y).length := by
  induction xs with
  | nil => exact Nat.le_refl _
  | cons y ys ih =>
    simp only [List.flatMap_cons, List.length_append, List.length_cons]
    omega

/-- A sequence reads back up to its closing bracket if its items do. -/
theorem readItems_print (hclose : IsClose close) (xs : List α)
    (hback : ∀ x ∈ xs, ReadsBack item p x) (hopen : ∀ x ∈ xs, OpensItem (p x)) (bytes : Bytes) :
    readItems item close (separated p xs ++ close :: bytes) = some (xs, bytes) := by
  cases xs with
  | nil =>
    have hblank : isBlank close = false := by rcases hclose with rfl | rfl <;> decide
    rw [separated, List.nil_append, readItems, skipBlanks_cons hblank]
    simp only [if_true]
  | cons x xs =>
    have hmore := endsNumeral_more (p := p) hclose xs bytes
    have hitem := hback x List.mem_cons_self _ hmore
    -- there are bytes enough for the fuel that the reader starts with
    have hlen :
        xs.length < ((xs.flatMap fun y => ','.toUInt8 :: p y) ++ close :: bytes).length := by
      have hle := length_le_more p xs
      rw [List.length_append, List.length_cons]
      omega
    have htail := readMore_print hclose xs (fun y hy => hback y (List.mem_cons_of_mem x hy))
      (fun y hy => hopen y (List.mem_cons_of_mem x hy)) hlen bytes
    obtain ⟨b, rest, hb, hblank, hsquare, hcurly⟩ := hopen x List.mem_cons_self
    -- the first item does not close the sequence
    have hnot : ¬ b = close := by rcases hclose with rfl | rfl <;> assumption
    rw [hb] at hitem
    rw [separated, hb, List.cons_append, List.cons_append, List.append_assoc, readItems,
      skipBlanks_cons hblank]
    simp only [List.cons_append] at hitem
    simp only [if_neg hnot, hitem, htail, Option.bind_eq_bind, Option.bind_some, Option.pure_def]

end Sequence

/-! ## Values -/

/-- A member of an object as it is written. -/
def printMember (m : StringLiteral × JsonText) : Bytes :=
  printString m.1 ++ ':'.toUInt8 :: m.2.print

/-- The items of an array are printed with commas between them. -/
theorem printItems_eq (xs : List JsonText) : printItems xs = separated print xs := by
  induction xs with
  | nil => rfl
  | cons x xs ih =>
    cases xs with
    | nil => simp [printItems, separated]
    | cons y ys =>
      -- every item but the first has a comma in front
      show x.print ++ ','.toUInt8 :: printItems (y :: ys) = _
      rw [ih]
      simp [separated]

/-- The members of an object are printed with commas between them. -/
theorem printMembers_eq (ms : List (StringLiteral × JsonText)) :
    printMembers ms = separated printMember ms := by
  induction ms with
  | nil => rfl
  | cons m ms ih =>
    obtain ⟨name, x⟩ := m
    cases ms with
    | nil => simp [printMembers, separated, printMember]
    | cons m ms =>
      show printString name ++ ':'.toUInt8 :: (x.print ++ ','.toUInt8 :: printMembers (m :: ms)) = _
      rw [ih]
      simp [separated, printMember]

/-- No item is longer than the whole list. -/
theorem length_le_separated {α : Type} {p : α → Bytes} {xs : List α} {x : α} (h : x ∈ xs) :
    (p x).length ≤ (separated p xs).length := by
  cases xs with
  | nil => exact absurd h List.not_mem_nil
  | cons y ys =>
    rw [separated, List.length_append]
    rcases List.mem_cons.1 h with rfl | h
    · omega
    · -- a later item is inside the part behind the first comma
      have hsub : (p x).length ≤ (ys.flatMap fun y => ','.toUInt8 :: p y).length := by
        have := (List.sublist_flatten_of_mem (List.mem_map_of_mem
          (f := fun y => ','.toUInt8 :: p y) h)).length_le
        rw [List.length_cons, ← List.flatMap_def] at this
        omega
      omega

theorem opensItem_printString (s : StringLiteral) (bytes : Bytes) :
    OpensItem (printString s ++ bytes) :=
  ⟨quote, _, rfl, by decide, by decide, by decide⟩

/-- A digit starts nothing but a numeral. -/
private theorem ne_of_isDigit {b c : UInt8} (h : Decimal.isDigit b = true)
    (hc : Decimal.isDigit c = false) : b ≠ c := by
  rintro rfl
  exact absurd h (by rw [hc]; decide)

private theorem isBlank_of_isDigit {b : UInt8} (h : Decimal.isDigit b = true) :
    isBlank b = false := by
  have hne (c : UInt8) (hc : Decimal.isDigit c = false) : (b == c) = false :=
    beq_eq_false_iff_ne.2 (ne_of_isDigit h hc)
  simp only [isBlank, hne 0x20 (by decide), hne 0x09 (by decide), hne 0x0A (by decide),
    hne 0x0D (by decide), Bool.or_self]

private theorem digits_cons (n : Nat) :
    ∃ d ds, Decimal.digits n = d :: ds ∧ Decimal.isDigit d = true := by
  rcases hd : Decimal.digits n with _ | ⟨d, ds⟩
  · exact absurd hd (Decimal.digits_ne_nil n)
  · exact ⟨d, ds, rfl, Decimal.isDigit_of_mem_digits (hd ▸ List.mem_cons_self)⟩

/-- A numeral starts with its sign or a digit. -/
private theorem opensItem_printNumeral {n : Numeral} (h : n.scale = 0) :
    OpensItem (printNumeral n) := by
  rw [printNumeral_eq h]
  cases n.negative with
  | true => exact ⟨'-'.toUInt8, _, rfl, by decide, by decide, by decide⟩
  | false =>
    obtain ⟨d, ds, hd, hdigit⟩ := digits_cons n.digits
    exact ⟨d, ds ++ printExponent n.exponent, by rw [hd]; rfl, isBlank_of_isDigit hdigit,
      ne_of_isDigit hdigit (by decide), ne_of_isDigit hdigit (by decide)⟩

/-- A numeral is read back as a value. -/
private theorem readValue_printNumeral {n : Numeral} (h : n.scale = 0) (fuel : Nat) :
    ReadsBack (readValue (fuel + 1)) print (.number n) := by
  intro bytes hend
  have hread := readNumeral_print h hend
  rw [print, printNumeral_eq h]
  cases hneg : n.negative with
  | true =>
    rw [hneg] at hread
    rw [if_pos rfl, List.cons_append, List.nil_append, List.cons_append, readValue]
    rw [if_neg (by decide), if_neg (by decide), if_neg (by decide), if_neg (by decide),
      if_neg (by decide), if_neg (by decide), if_pos rfl, hread]
    rfl
  | false =>
    rw [hneg] at hread
    -- without a sign the first byte is a digit, which starts no other value
    obtain ⟨d, ds, hd, hdigit⟩ := digits_cons n.digits
    have hne {c : UInt8} (hc : Decimal.isDigit c = false) : ¬ d = c := ne_of_isDigit hdigit hc
    rw [hd] at hread ⊢
    simp only [List.cons_append, List.append_assoc] at hread
    simp only [Bool.false_eq_true, if_false, List.nil_append, List.cons_append,
      List.append_assoc]
    rw [readValue, if_neg (hne (by decide)), if_neg (hne (by decide)), if_neg (hne (by decide)),
      if_neg (hne (by decide)), if_neg (hne (by decide)), if_neg (hne (by decide)),
      if_neg (hne (by decide)), hread]
    rfl

/-- A member reads back if its value does. -/
private theorem readMember_print {value : Reader JsonText} {m : StringLiteral × JsonText}
    (hname : Literal.Clean m.1) (hvalue : ReadsBack value print m.2)
    (hopen : OpensItem m.2.print) : ReadsBack (readMember value) printMember m := by
  intro bytes hend
  obtain ⟨name, x⟩ := m
  obtain ⟨tail, htail, hread⟩ :=
    readString_printString hname (':'.toUInt8 :: (x.print ++ bytes))
  -- no blank stands around the colon, nor in front of the value
  have hskip := (hopen.append bytes).skipBlanks
  rw [printMember, List.append_assoc, List.cons_append, htail, readMember, if_pos rfl]
  simp only [hread, skipBlanks_cons (b := ':'.toUInt8) (by decide), if_true, hskip,
    hvalue bytes hend, Option.bind_eq_bind, Option.bind_some, Option.pure_def]

end JsonText

namespace Json

open JsonText

/-- The written form of a value starts with a byte of its own. -/
theorem opensItem_print (v : Json) : OpensItem v.toText.print := by
  -- the first byte of each kind of value
  cases v with
  | null => exact ⟨'n'.toUInt8, Utf8.encode "ull", by decide, by decide, by decide, by decide⟩
  | bool b =>
    cases b with
    | true => exact ⟨'t'.toUInt8, Utf8.encode "rue", by decide, by decide, by decide, by decide⟩
    | false =>
      exact ⟨'f'.toUInt8, Utf8.encode "alse", by decide, by decide, by decide, by decide⟩
  | int n => exact opensItem_printNumeral rfl
  | real negative digits exponent => exact opensItem_printNumeral rfl
  | str s => exact ⟨quote, _, rfl, by decide, by decide, by decide⟩
  | arr items => exact ⟨'['.toUInt8, _, rfl, by decide, by decide, by decide⟩
  | obj fields => exact ⟨'{'.toUInt8, _, rfl, by decide, by decide, by decide⟩

/-- A keyword is read back by the rest of its letters. -/
private theorem readsBack_keyword {word : Bytes} {b : UInt8} {t : JsonText} {fuel : Nat}
    (hprint : t.print = b :: word)
    (hread : ∀ bytes, readValue fuel (b :: bytes) = readKeyword word t bytes) :
    ReadsBack (readValue fuel) print t := by
  intro bytes _
  have hprefix : word.isPrefixOf (word ++ bytes) = true := by simp
  rw [hprint, List.cons_append, hread, readKeyword, if_pos hprefix, List.drop_left]

/-- The literal of a string is read back as a value. -/
private theorem readsBack_string (s : String) (fuel : Nat) :
    ReadsBack (readValue (fuel + 1)) print (.string (StringLiteral.ofString s)) := by
  intro bytes _
  obtain ⟨tail, htail, hread⟩ := readString_printString (StringLiteral.clean_ofString s) bytes
  rw [print, htail, readValue, if_pos rfl, hread]
  rfl

/-- An array is read back if its items are. -/
private theorem readsBack_array {items : List JsonText} {fuel : Nat}
    (h : ∀ t ∈ items, ReadsBack (readValue fuel) print t ∧ OpensItem t.print) :
    ReadsBack (readValue (fuel + 1)) print (.array items) := by
  intro bytes _
  have hread := readItems_print (Or.inl rfl : IsClose ']'.toUInt8) items
    (fun t ht => (h t ht).1) (fun t ht => (h t ht).2) bytes
  rw [print, printItems_eq, List.cons_append, List.cons_append, List.append_assoc, readValue,
    if_neg (by decide), if_pos rfl, List.cons_append, List.nil_append, hread]
  rfl

/-- An object is read back if its members are. -/
private theorem readsBack_object {members : List (StringLiteral × JsonText)} {fuel : Nat}
    (h : ∀ m ∈ members, ReadsBack (readMember (readValue fuel)) printMember m) :
    ReadsBack (readValue (fuel + 1)) print (.object members) := by
  intro bytes _
  have hread := readItems_print (Or.inr rfl : IsClose '}'.toUInt8) members h
    (fun m _ => opensItem_printString m.1 _) bytes
  rw [print, printMembers_eq, List.cons_append, List.cons_append, List.append_assoc, readValue,
    if_neg (by decide), if_neg (by decide), if_pos rfl, List.cons_append, List.nil_append, hread]
  rfl

mutual

/-- A value reads back when there is fuel for every byte of it. -/
theorem readValue_print (v : Json) {fuel : Nat} (h : v.toText.print.length ≤ fuel) :
    ReadsBack (readValue fuel) print v.toText := by
  obtain ⟨fuel, rfl⟩ : ∃ n, fuel = n + 1 :=
    Nat.exists_eq_succ_of_ne_zero (by have := (opensItem_print v).length_pos; omega)
  match v with
  | .null => exact readsBack_keyword rfl fun bytes => rfl
  | .bool true => exact readsBack_keyword rfl fun bytes => rfl
  | .bool false => exact readsBack_keyword rfl fun bytes => rfl
  | .int n => exact readValue_printNumeral rfl fuel
  | .real negative digits exponent => exact readValue_printNumeral rfl fuel
  | .str s => exact readsBack_string s fuel
  | .arr items =>
    -- an item is shorter than the array it stands in, so the fuel is enough for it
    refine readsBack_array fun t ht => readItems_toItems items (fun t ht => ?_) t ht
    have hle := length_le_separated (p := print) ht
    simp only [toText, print, printItems_eq, List.length_cons, List.length_append] at h
    omega
  | .obj fields =>
    refine readsBack_object fun m hm => readMembers_toMembers fields (fun m hm => ?_) m hm
    -- a member is shorter than its object, and its value shorter than the member
    have hle := length_le_separated (p := printMember) hm
    simp only [toText, print, printMembers_eq, List.length_cons, List.length_append] at h
    simp only [printMember, List.length_cons, List.length_append] at hle
    omega

/-- The items of an array read back if there is fuel for each of them. -/
private theorem readItems_toItems (vs : List Json) {fuel : Nat}
    (h : ∀ t ∈ toItems vs, t.print.length ≤ fuel) :
    ∀ t ∈ toItems vs, ReadsBack (readValue fuel) print t ∧ OpensItem t.print := by
  match vs with
  | [] => exact nofun
  | v :: vs =>
    intro t ht
    rcases List.mem_cons.1 ht with rfl | ht
    · exact ⟨readValue_print v (h _ List.mem_cons_self), opensItem_print v⟩
    · exact readItems_toItems vs (fun t ht => h t (List.mem_cons_of_mem _ ht)) t ht

/-- The members of an object read back if there is fuel for the value of each. -/
private theorem readMembers_toMembers (fields : List (String × Json)) {fuel : Nat}
    (h : ∀ m ∈ toMembers fields, m.2.print.length ≤ fuel) :
    ∀ m ∈ toMembers fields, ReadsBack (readMember (readValue fuel)) printMember m := by
  match fields with
  | [] => exact nofun
  | (k, v) :: fields =>
    intro m hm
    rcases List.mem_cons.1 hm with rfl | hm
    · exact readMember_print (StringLiteral.clean_ofString k)
        (readValue_print v (h _ List.mem_cons_self)) (opensItem_print v)
    · exact readMembers_toMembers fields (fun m hm => h m (List.mem_cons_of_mem _ hm)) m hm

end

/-- The text of a value is read as the tree it was printed from. -/
theorem parse?_render (v : Json) : JsonText.parse? v.render = some v.toText := by
  have hread := readValue_print v (Nat.le_refl v.toText.print.length) [] endsNumeral_nil
  rw [List.append_nil] at hread
  rw [render, JsonText.parse?, (opensItem_print v).skipBlanks, hread]
  rfl

end Json

end EntityStore
