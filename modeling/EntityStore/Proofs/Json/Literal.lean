import EntityStore.Json.Basic
import EntityStore.Proofs.Text.ByteOrder
import Mathlib.Data.List.TakeDrop

/-! # String literals and numerals read back

A string is written as a literal in which quotation marks, backslashes and control
characters are escaped.  Reading undoes both steps: the bytes of the literal give its units,
and the units give the string.

* `JsonText.readString_printString`   the units of a literal read back from their bytes
* `StringLiteral.toString?_ofString`  a string reads back from its literal
* `JsonText.readNumeral_print`        a numeral without a point reads back from its bytes -/

namespace EntityStore

namespace JsonText

/-! ## Escapes -/

theorem hexValue?_hexDigit {n : Nat} (h : n < 16) : hexValue? (hexDigit n) = some n := by
  have all : ∀ n < 16, hexValue? (hexDigit n) = some n := by decide
  exact all n h

/-- Each short escape is found under its letter, and none has the letter of the long form. -/
private theorem lookup_shortEscapes :
    ∀ e ∈ shortEscapes, shortEscapes.lookup e.1 = some e.2 ∧ e.1 ≠ 'u'.toUInt8 := by
  -- decided on the list; over all pairs of bytes there would be too much to try
  have all : shortEscapes.all (fun e =>
      decide (shortEscapes.lookup e.1 = some e.2 ∧ e.1 ≠ 'u'.toUInt8)) = true := by decide
  intro e he
  exact of_decide_eq_true (List.all_eq_true.1 all e he)

/-- Four hex digits spell their code unit. -/
private theorem codeUnit?_hexDigits (code : UInt16) :
    codeUnit? (hexDigit (code.toNat / 4096)) (hexDigit (code.toNat / 256 % 16))
      (hexDigit (code.toNat / 16 % 16)) (hexDigit (code.toNat % 16)) = some code := by
  have hlt := code.toNat_lt
  simp only [codeUnit?, hexValue?_hexDigit (n := code.toNat / 4096) (by omega),
    hexValue?_hexDigit (n := code.toNat / 256 % 16) (by omega),
    hexValue?_hexDigit (n := code.toNat / 16 % 16) (by omega),
    hexValue?_hexDigit (n := code.toNat % 16) (by omega),
    Option.bind_eq_bind, Option.bind_some, Option.pure_def]
  -- the four places add up to the number they were taken from
  have hsum : ((code.toNat / 4096 * 16 + code.toNat / 256 % 16) * 16 + code.toNat / 16 % 16) * 16
      + code.toNat % 16 = code.toNat := by omega
  rw [hsum, UInt16.ofNat_toNat]

/-- An escape reads back, whatever follows. -/
private theorem readString_printEscape (code : UInt16) (bytes : Bytes) :
    readString (printEscape code ++ bytes) =
      (readString bytes).map fun (units, rest) => (.escape code :: units, rest) := by
  have hq : ¬ backslash = quote := by decide
  unfold printEscape
  split
  · -- the short form: the letter is looked up under the code unit, and the other way round
    next letter c hfind =>
    have hc : c = code := by simpa using List.find?_some hfind
    obtain ⟨hlookup, hu⟩ := lookup_shortEscapes _ (List.mem_of_find?_eq_some hfind)
    subst hc
    rw [List.cons_append, List.cons_append, List.nil_append, readString.eq_def]
    simp only [if_neg hq, if_neg hu, if_true, hlookup, Option.bind_eq_bind, Option.bind_some,
      Option.pure_def]
    cases readString bytes <;> rfl
  · -- the long form: four hex digits
    simp only [List.cons_append, List.nil_append]
    rw [readString.eq_def]
    simp only [if_neg hq, if_true, codeUnit?_hexDigits, Option.bind_eq_bind, Option.bind_some,
      Option.pure_def]
    cases readString bytes <;> rfl

/-! ## String literals -/

/-- A literal that its writer may put down: every byte that stands for itself may do so. -/
def Literal.Clean (s : StringLiteral) : Prop :=
  ∀ b, .literal b ∈ s → StringLiteral.mustEscape b = false

/-- A byte that needs no escape reads back as it stands. -/
private theorem readString_literal {b : UInt8} (h : StringLiteral.mustEscape b = false)
    (bytes : Bytes) :
    readString (b :: bytes) =
      (readString bytes).map fun (units, rest) => (.literal b :: units, rest) := by
  simp only [StringLiteral.mustEscape, Bool.or_eq_false_iff, decide_eq_false_iff_not,
    beq_eq_false_iff_ne] at h
  obtain ⟨⟨hcontrol, hquote⟩, hbackslash⟩ := h
  rw [readString.eq_def]
  simp only [if_neg hquote, if_neg hbackslash, if_neg hcontrol, Option.bind_eq_bind,
    Option.pure_def]
  cases readString bytes <;> rfl

/-- The units of a literal read back up to its closing quotation mark. -/
theorem readString_flatMap {s : StringLiteral} (h : Literal.Clean s) (bytes : Bytes) :
    readString (s.flatMap printUnit ++ quote :: bytes) = some (s, bytes) := by
  induction s with
  | nil =>
    rw [List.flatMap_nil, List.nil_append, readString.eq_def]
    simp only [if_true]
  | cons u s ih =>
    have htail := ih fun b hb => h b (List.mem_cons_of_mem u hb)
    rw [List.flatMap_cons, List.append_assoc]
    -- a unit is a byte as it stands or an escape
    cases u with
    | literal b =>
      rw [printUnit, List.cons_append, List.nil_append, readString_literal (h b List.mem_cons_self),
        htail]
      rfl
    | escape code => rw [printUnit, readString_printEscape, htail]; rfl

/-- A literal reads back behind its opening quotation mark. -/
theorem readString_printString {s : StringLiteral} (h : Literal.Clean s) (bytes : Bytes) :
    ∃ tail, printString s ++ bytes = quote :: tail ∧ readString tail = some (s, bytes) := by
  refine ⟨s.flatMap printUnit ++ quote :: bytes, ?_, readString_flatMap h bytes⟩
  simp [printString]

end JsonText

namespace StringLiteral

/-- The literal of a string leaves no byte as it stands that must be escaped. -/
theorem clean_ofString (s : String) : JsonText.Literal.Clean (ofString s) := by
  intro b hb
  obtain ⟨a, -, ha⟩ := List.mem_map.1 hb
  split at ha
  · cases ha
  · next hm =>
    cases ha
    exact Bool.eq_false_iff.2 hm

/-- The bytes that must be escaped are code points of their own. -/
private theorem toNat_lt_of_mustEscape {b : UInt8} (h : mustEscape b = true) : b.toNat < 0x80 := by
  simp only [mustEscape, Bool.or_eq_true, decide_eq_true_eq, beq_iff_eq] at h
  rcases h with (h | rfl) | rfl
  · have := UInt8.lt_iff_toNat_lt.1 h
    simp only [UInt8.reduceToNat] at this
    omega
  · decide
  · decide

/-- An escape of a single byte stands for that byte. -/
private theorem bytes?_escape {b : UInt8} (h : b.toNat < 0x80) (rest : StringLiteral) :
    bytes? (.escape b.toUInt16 :: rest) = (bytes? rest).map (b :: ·) := by
  -- a code unit below 128 is no half of a surrogate pair, so it stands for itself
  have hnat : b.toUInt16.toNat = b.toNat := UInt8.toNat_toUInt16 b
  have hhigh : isHighSurrogate b.toUInt16 = false := by
    simp only [isHighSurrogate, Bool.and_eq_false_iff, decide_eq_false_iff_not,
      UInt16.le_iff_toNat_le, hnat, UInt16.reduceToNat]
    omega
  have hlow : isLowSurrogate b.toUInt16 = false := by
    simp only [isLowSurrogate, Bool.and_eq_false_iff, decide_eq_false_iff_not,
      UInt16.le_iff_toNat_le, hnat, UInt16.reduceToNat]
    omega
  rw [bytes?.eq_def]
  simp only [hhigh, hlow, hnat, Utf8.utf8EncodeChar_ofNat h]
  rfl

/-- The literal of a string stands for the bytes of that string. -/
theorem bytes?_ofString (s : String) : bytes? (ofString s) = some (Utf8.encode s) := by
  rw [ofString]
  -- the bytes of a string are escaped one by one, whatever they encode
  generalize Utf8.encode s = bytes
  induction bytes with
  | nil => rfl
  | cons b bytes ih =>
    rw [List.map_cons]
    split
    · next hm => rw [bytes?_escape (toNat_lt_of_mustEscape hm), ih]; rfl
    · rw [bytes?, ih]; rfl

/-- Every string reads back from its literal. -/
theorem toString?_ofString (s : String) : toString? (ofString s) = some s := by
  rw [toString?, bytes?_ofString]
  exact Utf8.decode?_encode s

end StringLiteral

namespace Decimal

/-! ## Numerals -/

theorem isDigit_of_mem_digits {n : Nat} {b : UInt8} (h : b ∈ digits n) : isDigit b = true := by
  obtain ⟨c, hc, rfl⟩ := List.mem_map.1 h
  have hdigit := Nat.isDigit_of_mem_toDigits (by decide) (by decide) hc
  simp only [Char.isDigit, Bool.and_eq_true, decide_eq_true_eq, ge_iff_le,
    UInt32.le_iff_toNat_le] at hdigit
  have hlow : 48 ≤ c.val.toNat := hdigit.1
  have hhigh : c.val.toNat ≤ 57 := hdigit.2
  -- a digit fits into a byte, so nothing of it is cut off
  have hc : c.toUInt8.toNat = c.val.toNat := Nat.mod_eq_of_lt (by omega)
  simp only [isDigit, Bool.and_eq_true, decide_eq_true_eq, UInt8.le_iff_toNat_le, hc]
  exact ⟨hlow, hhigh⟩

theorem digits_ne_nil (n : Nat) : digits n ≠ [] := by
  rw [digits, Ne, List.map_eq_nil_iff]
  exact Nat.toDigits_ne_nil

/-- Only zero is written with a zero in front. -/
theorem head?_digits {n : Nat} (h : n ≠ 0) : (digits n).head? ≠ some '0'.toUInt8 := by
  induction n using Nat.strongRecOn with
  | ind n ih =>
    rcases Nat.lt_or_ge n 10 with hlt | hge
    · have all : ∀ n < 10, n ≠ 0 → (digits n).head? ≠ some '0'.toUInt8 := by decide
      exact all n hlt h
    · have hsplit : digits n = digits (n / 10) ++ [(n % 10).digitChar.toUInt8] := by
        rw [digits, Nat.toDigits_of_base_le (by decide) hge, List.map_append]
        rfl
      -- the first digit is that of the number without its last one
      have hrest := ih (n / 10) (by omega) (by omega)
      rw [hsplit, List.head?_append]
      rcases hd : digits (n / 10) with _ | ⟨d, ds⟩
      · exact absurd hd (digits_ne_nil _)
      · rw [hd] at hrest
        exact hrest

end Decimal

namespace JsonText

/-- Bytes that do not continue a numeral. -/
def EndsNumeral (bytes : Bytes) : Prop :=
  ∀ b ∈ bytes.head?, Decimal.isDigit b = false ∧ b ≠ '.'.toUInt8 ∧ b ≠ 'e'.toUInt8 ∧
    b ≠ 'E'.toUInt8

/-- Digits are read up to the first byte that is none. -/
theorem readDigits_append {ds bytes : Bytes} (hne : ds ≠ [])
    (hds : ∀ b ∈ ds, Decimal.isDigit b = true)
    (hend : ∀ b ∈ bytes.head?, Decimal.isDigit b = false) :
    readDigits (ds ++ bytes) = some (ds, bytes) := by
  have htake : bytes.takeWhile Decimal.isDigit = [] := by
    cases bytes with
    | nil => rfl
    | cons b bytes => simp [hend b rfl]
  have hdrop : bytes.dropWhile Decimal.isDigit = bytes := by
    cases bytes with
    | nil => rfl
    | cons b bytes => simp [hend b rfl]
  -- the digits are taken up to where `bytes` starts
  rw [readDigits, List.span_eq_takeWhile_dropWhile, List.takeWhile_append_of_pos hds,
    List.dropWhile_append_of_pos hds, htake, hdrop, List.append_nil]
  cases ds with
  | nil => exact absurd rfl hne
  | cons d ds => rfl

/-- The digits of a number have no zero in front that the reader would refuse. -/
private theorem readWhole_digits (n : Nat) {bytes : Bytes}
    (hend : ∀ b ∈ bytes.head?, Decimal.isDigit b = false) :
    readWhole (Decimal.digits n ++ bytes) = some (Decimal.digits n, bytes) := by
  have hread := readDigits_append (Decimal.digits_ne_nil n)
    (fun b => Decimal.isDigit_of_mem_digits) hend
  have hzero : ¬((Decimal.digits n).head? = some '0'.toUInt8 ∧ (Decimal.digits n).length ≠ 1) := by
    rintro ⟨hhead, hlen⟩
    -- only the number zero starts with a zero, and then that is its one digit
    by_cases hn : n = 0
    · subst hn
      exact hlen (by decide)
    · exact Decimal.head?_digits hn hhead
  simp only [readWhole, hread, Option.bind_eq_bind, Option.bind_some, if_neg hzero,
    Option.pure_def]

/-- What stands behind the digits of a numeral without a point. -/
def printExponent : Option Int → Bytes
  | none => []
  | some e => 'e'.toUInt8 :: ((if e < 0 then ['-'.toUInt8] else []) ++ Decimal.digits e.natAbs)

/-- An exponent is read back, and none is read where none was written. -/
private theorem readExponent_printExponent (exponent : Option Int) {bytes : Bytes}
    (hend : EndsNumeral bytes) :
    readExponent (printExponent exponent ++ bytes) = some (exponent, bytes) := by
  have hdigits (n : Nat) := readDigits_append (Decimal.digits_ne_nil n)
    (fun b => Decimal.isDigit_of_mem_digits) fun b hb => (hend b hb).1
  cases exponent with
  | none =>
    cases bytes with
    | nil => rfl
    | cons b bytes =>
      -- what follows is no letter that would start an exponent
      obtain ⟨-, -, he, hE⟩ := hend b rfl
      simp only [printExponent, List.nil_append, readExponent, he, hE, or_self, if_false]
  | some e =>
    by_cases hneg : e < 0
    · have hback : -(e.natAbs : Int) = e := by omega
      simp only [printExponent, if_pos hneg, List.cons_append, List.nil_append, readExponent,
        true_or, if_true, hdigits, Option.bind_eq_bind, Option.bind_some, Option.pure_def,
        Decimal.ofDigits_digits, hback]
    · -- without a sign, the first digit must not be taken for one
      have hback : (e.natAbs : Int) = e := by omega
      have hread := hdigits e.natAbs
      have hof := Decimal.ofDigits_digits e.natAbs
      rcases hd : Decimal.digits e.natAbs with _ | ⟨d, ds⟩
      · exact absurd hd (Decimal.digits_ne_nil _)
      · rw [hd] at hread hof
        have hdigit : Decimal.isDigit d = true :=
          Decimal.isDigit_of_mem_digits (hd ▸ List.mem_cons_self)
        have hminus : d ≠ '-'.toUInt8 := by rintro rfl; exact absurd hdigit (by decide)
        have hplus : d ≠ '+'.toUInt8 := by rintro rfl; exact absurd hdigit (by decide)
        simp only [List.cons_append] at hread
        simp only [printExponent, if_neg hneg, hd, List.cons_append, List.nil_append,
          readExponent, true_or, if_true, if_neg hminus, if_neg hplus, hread,
          Option.bind_eq_bind, Option.bind_some, Option.pure_def, hof, hback]

/-- A numeral without a fraction is its sign, its digits and its exponent. -/
theorem printNumeral_eq {n : Numeral} (h : n.scale = 0) :
    printNumeral n = (if n.negative then ['-'.toUInt8] else []) ++
      (Decimal.digits n.digits ++ printExponent n.exponent) := by
  obtain ⟨negative, digits, scale, exponent⟩ := n
  simp only at h
  subst h
  cases exponent with
  | none => simp [printNumeral, printExponent]
  | some e => simp [printNumeral, printExponent]

/-- A numeral without a point reads back behind its sign. -/
theorem readNumeral_print {n : Numeral} (h : n.scale = 0) {bytes : Bytes}
    (hend : EndsNumeral bytes) :
    readNumeral n.negative (Decimal.digits n.digits ++ printExponent n.exponent ++ bytes) =
      some (n, bytes) := by
  obtain ⟨negative, digits, scale, exponent⟩ := n
  simp only at h
  subst h
  have hexponent := readExponent_printExponent exponent hend
  have hnext : ∀ b ∈ (printExponent exponent ++ bytes).head?,
      Decimal.isDigit b = false ∧ b ≠ '.'.toUInt8 := by
    cases exponent with
    | none => exact fun b hb => ⟨(hend b hb).1, (hend b hb).2.1⟩
    | some e =>
      rintro b ⟨⟩
      decide
  -- what follows the digits is not a point, so there is no fraction to read
  have hfraction : readFraction (printExponent exponent ++ bytes) =
      some ([], printExponent exponent ++ bytes) := by
    rcases hp : printExponent exponent ++ bytes with _ | ⟨b, rest⟩
    · rfl
    · rw [readFraction, if_neg (hnext b (by rw [hp]; rfl)).2]
  simp only [readNumeral, List.append_assoc, readWhole_digits digits fun b hb => (hnext b hb).1,
    hfraction, hexponent, Option.bind_eq_bind, Option.bind_some, Option.pure_def,
    List.append_nil, Decimal.ofDigits_digits, List.length_nil]

end JsonText

end EntityStore
