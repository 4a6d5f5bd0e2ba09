import EntityStore.Bytes
import Mathlib.Tactic.SplitIfs

/-! # The order of strings is the order of their bytes

Lean compares strings code point by code point.  UTF-8 is made so that a comparison of the
bytes gives the same answer: the first byte of a code point tells its length, and a longer
form belongs to a larger code point.

* `Utf8.encode_lt_encode_iff`  strings are ordered as their UTF-8 bytes are -/

namespace EntityStore

namespace Utf8

/-! ## Bytes from numbers -/

/-- Bytes are ordered as their values are. -/
private theorem ofNat_lt_ofNat_iff {m n : Nat} (hm : m < 256) (hn : n < 256) :
    UInt8.ofNat m < UInt8.ofNat n ↔ m < n := by
  rw [UInt8.lt_iff_toNat_lt, UInt8.toNat_ofNat', UInt8.toNat_ofNat',
    Nat.mod_eq_of_lt hm, Nat.mod_eq_of_lt hn]

/-- Bytes are the same if their values are. -/
private theorem ofNat_eq_ofNat_iff {m n : Nat} (hm : m < 256) (hn : n < 256) :
    UInt8.ofNat m = UInt8.ofNat n ↔ m = n := by
  rw [← UInt8.toNat_inj, UInt8.toNat_ofNat', UInt8.toNat_ofNat',
    Nat.mod_eq_of_lt hm, Nat.mod_eq_of_lt hn]

/-- The smaller of two numbers is smaller in front of the last digit to base 64, or equal
    there and smaller in that digit. -/
private theorem lt_iff_digit {m n : Nat} :
    m < n ↔ m / 64 < n / 64 ∨ m / 64 = n / 64 ∧ m % 64 < n % 64 := by omega

/-! ## Code points -/

/-- No code point lies above the last plane. -/
theorem toNat_lt (c : Char) : c.val.toNat < 0x110000 := by
  rcases c.valid with hv | ⟨_, hv⟩
  · exact Nat.lt_trans hv (by decide)
  · exact hv

/-- The bytes of a code point hold its digits to base 64. -/
theorem utf8EncodeChar_eq (c : Char) :
    String.utf8EncodeChar c =
      let v := c.val.toNat
      if v < 0x80 then [UInt8.ofNat v]
      else if v < 0x800 then [UInt8.ofNat (v / 64 + 0xC0), UInt8.ofNat (v % 64 + 0x80)]
      else if v < 0x10000 then
        [UInt8.ofNat (v / 64 / 64 + 0xE0), UInt8.ofNat (v / 64 % 64 + 0x80),
          UInt8.ofNat (v % 64 + 0x80)]
      else
        [UInt8.ofNat (v / 64 / 64 / 64 + 0xF0), UInt8.ofNat (v / 64 / 64 % 64 + 0x80),
          UInt8.ofNat (v / 64 % 64 + 0x80), UInt8.ofNat (v % 64 + 0x80)] := by
  have hv := toNat_lt c
  have h2 : c.val.toNat / 4096 = c.val.toNat / 64 / 64 := by omega
  have h3 : c.val.toNat / 262144 = c.val.toNat / 64 / 64 / 64 := by omega
  have hlt (a b : Nat) : a ≤ b ↔ a < b + 1 := by omega
  simp only [String.utf8EncodeChar, h2, h3, hlt]
  -- the leading digit is small enough not to be cut off
  split_ifs
  · rfl
  · rw [Nat.mod_eq_of_lt (a := c.val.toNat / 64) (by omega)]
  · rw [Nat.mod_eq_of_lt (a := c.val.toNat / 64 / 64) (by omega)]
  · rw [Nat.mod_eq_of_lt (a := c.val.toNat / 64 / 64 / 64) (by omega)]

/-- A byte below 128 is the code point with its number. -/
theorem utf8EncodeChar_ofNat {b : UInt8} (h : b.toNat < 0x80) :
    String.utf8EncodeChar (Char.ofNat b.toNat) = [b] := by
  have hv : (Char.ofNat b.toNat).val.toNat = b.toNat := by
    have hvalid : b.toNat.isValidChar := Or.inl (by omega)
    rw [Char.ofNat, dif_pos hvalid]
    rfl
  rw [String.utf8EncodeChar, hv, if_pos (by omega), UInt8.ofNat_toNat]

/-- The bytes of a smaller code point come first, whatever follows. -/
theorem utf8EncodeChar_append_lt {c d : Char} (h : c < d) (x y : Bytes) :
    String.utf8EncodeChar c ++ x < String.utf8EncodeChar d ++ y := by
  have hlt : c.val.toNat < d.val.toNat := h
  have hd := toNat_lt d
  simp only [utf8EncodeChar_eq]
  generalize c.val.toNat = m at hlt
  generalize d.val.toNat = n at hlt hd
  -- the order of the numbers, one digit after the other
  have h1 := lt_iff_digit (m := m) (n := n)
  have h2 := lt_iff_digit (m := m / 64) (n := n / 64)
  have h3 := lt_iff_digit (m := m / 64 / 64) (n := n / 64 / 64)
  split_ifs <;>
    simp (disch := omega) only [List.cons_append, List.nil_append, List.cons_lt_cons_iff,
      ofNat_lt_ofNat_iff, ofNat_eq_ofNat_iff, Nat.add_lt_add_iff_right,
      Nat.add_right_cancel_iff] <;>
    omega

/-- Lists of characters are ordered as their bytes are. -/
private theorem flatMap_lt {cs ds : List Char} (h : cs < ds) :
    cs.flatMap String.utf8EncodeChar < ds.flatMap String.utf8EncodeChar := by
  induction cs generalizing ds with
  | nil =>
    cases ds with
    | nil => exact absurd h (List.lt_irrefl _)
    | cons d ds =>
      rw [List.flatMap_cons, List.flatMap_nil]
      -- a character has at least one byte, so the longer text is behind
      rcases hb : String.utf8EncodeChar d with _ | ⟨b, bs⟩
      · exact absurd hb String.utf8EncodeChar_ne_nil
      · exact List.nil_lt_cons _ _
  | cons c cs ih =>
    cases ds with
    | nil => exact absurd h (List.not_lt_nil _)
    | cons d ds =>
      rw [List.flatMap_cons, List.flatMap_cons]
      -- the first characters decide, unless they are the same
      rcases List.cons_lt_cons_iff.1 h with hcd | ⟨rfl, hlt⟩
      · exact utf8EncodeChar_append_lt hcd _ _
      · exact List.append_left_lt (ih hlt)

/-! ## Strings -/

/-- The bytes of a string are those of its characters, one after the other. -/
theorem encode_ofList (cs : List Char) :
    encode (String.ofList cs) = cs.flatMap String.utf8EncodeChar := by
  simp [encode, List.utf8Encode]

/-- The bytes of a smaller string are smaller. -/
private theorem encode_lt_encode {s t : String} (h : s < t) : encode s < encode t := by
  rw [← String.ofList_toList (s := s), ← String.ofList_toList (s := t), encode_ofList,
    encode_ofList]
  exact flatMap_lt h

/-- Strings are ordered as their UTF-8 bytes are. -/
theorem encode_lt_encode_iff {s t : String} : encode s < encode t ↔ s < t := by
  refine ⟨fun h => ?_, encode_lt_encode⟩
  -- both orders are total, so one direction gives the other
  rcases Std.lt_trichotomy s t with hst | rfl | hts
  · exact hst
  · exact absurd h (List.lt_irrefl _)
  · exact absurd (encode_lt_encode hts) (List.lt_asymm h)

/-- Strings are ordered as their bytes are, also where they may be equal. -/
theorem encode_le_encode_iff {s t : String} : encode s ≤ encode t ↔ s ≤ t := by
  rw [← Std.not_lt, ← Std.not_lt, encode_lt_encode_iff]

end Utf8

end EntityStore
