/-! # Bytes and UTF-8

Texts that come from outside (cursor payloads, configuration files, kind lists) are
lists of bytes until something reads them.  This file fixes the two directions between
a `String` and its UTF-8 bytes, and the decimal digits of a number as bytes.

* `decode?_encode`   every string reads back from its own bytes
* `encode_decode?`   bytes that read as a string are the bytes of that string
* `ofDigits_digits`  every number reads back from its own digits -/

namespace EntityStore

/-- A text as it was received, before any decoding. -/
abbrev Bytes := List UInt8

namespace Utf8

/-- The UTF-8 bytes of a string. -/
def encode (s : String) : Bytes := s.toByteArray.data.toList

/-- The string with these UTF-8 bytes, if they are well-formed UTF-8. -/
def decode? (bytes : Bytes) : Option String := String.fromUTF8? ⟨bytes.toArray⟩

/-- The bytes of a string decode to that string. -/
theorem decode?_encode (s : String) : decode? (encode s) = some s := by
  simp [decode?, encode, String.fromUTF8?, s.isValidUTF8, String.fromUTF8]

/-- Bytes that decode are those of the string. -/
theorem encode_decode? {bytes : Bytes} {s : String} (h : decode? bytes = some s) :
    encode s = bytes := by
  simp only [decode?, String.fromUTF8?, Option.dite_none_right_eq_some, Option.some.injEq] at h
  obtain ⟨_, rfl⟩ := h
  simp [encode, String.fromUTF8]

/-- Different strings have different bytes. -/
theorem encode_injective {s t : String} (h : encode s = encode t) : s = t := by
  have := decode?_encode s
  rw [h, decode?_encode] at this
  exact (Option.some.inj this).symm

end Utf8

namespace Decimal

/-- Whether a byte is one of the digits 0 to 9. -/
def isDigit (b : UInt8) : Bool := '0'.toUInt8 ≤ b && b ≤ '9'.toUInt8

/-- The digits of a number, most significant first and without leading zeros. -/
def digits (n : Nat) : Bytes := (Nat.toDigits 10 n).map Char.toUInt8

/-- The number that a run of digits denotes. -/
def ofDigits (ds : Bytes) : Nat := Nat.ofDigitChars 10 (ds.map fun d => Char.ofNat d.toNat) 0

/-- The byte of a digit stands for that digit. -/
private theorem ofNat_toUInt8_of_isDigit {c : Char} (h : c.isDigit = true) :
    Char.ofNat c.toUInt8.toNat = c := by
  simp only [Char.isDigit, Bool.and_eq_true, decide_eq_true_eq, ge_iff_le,
    UInt32.le_iff_toNat_le] at h
  -- digits lie below 256, so nothing is cut off
  have hc : c.toUInt8.toNat = c.toNat := by
    have h2 : c.val.toNat ≤ 57 := h.2
    have : c.toUInt8.toNat = c.val.toNat % 256 := rfl
    rw [this, Nat.mod_eq_of_lt (by omega)]
    rfl
  rw [hc, Char.ofNat_toNat]

/-- A number is read back from its digits. -/
theorem ofDigits_digits (n : Nat) : ofDigits (digits n) = n := by
  have h : (digits n).map (fun d => Char.ofNat d.toNat) = Nat.toDigits 10 n := by
    simp only [digits, List.map_map]
    conv => rhs; rw [← List.map_id (Nat.toDigits 10 n)]
    refine List.map_congr_left fun c hc => ?_
    exact ofNat_toUInt8_of_isDigit (Nat.isDigit_of_mem_toDigits (by decide) (by decide) hc)
  rw [ofDigits, h, Nat.ofDigitChars_toDigits (by decide) (by decide)]

end Decimal

end EntityStore
