import EntityStore.Base64Url
import EntityStore.Proofs.Text.ByteOrder
import Mathlib.Data.List.Basic

/-! # Tokens read back

What `Base64Url.encode` writes, `Base64Url.decode` reads.  The three layers are undone one
by one: characters to bytes, symbols to values of six bits, values to bytes.

No other text is read: a token that is accepted is the one that is written for its bytes, so
there is one spelling of them, without padding and without bits left over.

* `Base64Url.join?_split`       values of six bits join to the bytes that were split
* `Base64Url.decode_encode`     every list of bytes reads back from its token
* `Base64Url.encode_of_decode`  what is read is what would be written
* `Base64Url.spells_encode`     a token has the bits of its bytes in groups of six -/

namespace EntityStore

namespace Base64Url

/-! ## Symbols -/

/-- A symbol is read back as the value that it stands for. -/
theorem value?_symbol {n : Nat} (h : n < 64) : value? (symbol n) = some n := by
  have all : ∀ n < 64, value? (symbol n) = some n := by decide
  exact all n h

/-- All symbols are ASCII characters. -/
private theorem symbol_lt {n : Nat} (h : n < 64) : (symbol n).toNat < 0x80 := by
  have all : ∀ n < 64, (symbol n).toNat < 0x80 := by decide
  exact all n h

/-- Symbols are read back as their values, wherever they stand in a token. -/
theorem values_map_symbol (ns : List Nat) (h : ∀ n ∈ ns, n < 64) (offset : Nat) :
    values offset (ns.map symbol) = .ok ns := by
  induction ns generalizing offset with
  | nil => rfl
  | cons n ns ih =>
    have hn := h n List.mem_cons_self
    simp only [List.map_cons, values, value?_symbol hn]
    rw [ih fun m hm => h m (List.mem_cons_of_mem n hm)]
    rfl

/-! ## Groups of six bits -/

/-- Bytes are split into values that have a symbol. -/
theorem lt_of_mem_split {bytes : Bytes} {n : Nat} (h : n ∈ split bytes) : n < 64 := by
  fun_induction split bytes with
  | case1 a b c rest ih =>
    simp only [List.mem_cons] at h
    have ha := a.toNat_lt
    have hb := b.toNat_lt
    have hc := c.toNat_lt
    -- the four values that three bytes make
    rcases h with rfl | rfl | rfl | rfl | h
    · omega
    · omega
    · omega
    · omega
    · exact ih h
  | case2 a b =>
    have ha := a.toNat_lt
    have hb := b.toNat_lt
    -- two bytes make three values, and the last of them has its low bits free
    simp only [List.mem_cons, List.not_mem_nil, or_false] at h
    omega
  | case3 a =>
    have ha := a.toNat_lt
    simp only [List.mem_cons, List.not_mem_nil, or_false] at h
    omega
  | case4 => exact absurd h List.not_mem_nil

/-- No group of symbols is a single one. -/
theorem length_split_mod (bytes : Bytes) : (split bytes).length % 4 ≠ 1 := by
  fun_induction split bytes with
  | case1 a b c rest ih => simp only [List.length_cons]; omega
  | case2 a b => simp
  | case3 a => simp
  | case4 => simp

/-- A byte is determined by its value. -/
private theorem ofNat_eq {n : Nat} {b : UInt8} (h : n = b.toNat) : UInt8.ofNat n = b := by
  rw [h, UInt8.ofNat_toNat]

/-- Bytes that were split are joined again. -/
theorem join?_split (bytes : Bytes) : join? (split bytes) = some bytes := by
  fun_induction split bytes with
  -- three bytes fill four values, so the groups do not meet
  | case1 a b c rest ih =>
    have ha := a.toNat_lt
    have hb := b.toNat_lt
    have hc := c.toNat_lt
    simp only [join?, ih, Option.pure_def, Option.bind_eq_bind, Option.bind_some]
    rw [ofNat_eq (b := a) (by omega), ofNat_eq (b := b) (by omega), ofNat_eq (b := c) (by omega)]
  | case2 a b =>
    have ha := a.toNat_lt
    have hb := b.toNat_lt
    -- the bits that fill up the last symbol are zero
    have hz : b.toNat % 16 * 4 % 4 = 0 := by omega
    simp only [join?, hz, if_true]
    rw [ofNat_eq (b := a) (by omega), ofNat_eq (b := b) (by omega)]
  | case3 a =>
    have ha := a.toNat_lt
    have hz : a.toNat % 4 * 16 % 16 = 0 := by omega
    simp only [join?, hz, if_true]
    rw [ofNat_eq (b := a) (by omega)]
  | case4 => rfl

/-! ## Tokens -/

/-- The symbols of bytes decode to these bytes. -/
theorem decodeBytes_encodeBytes (bytes : Bytes) : decodeBytes (encodeBytes bytes) = .ok bytes := by
  have hlen : (encodeBytes bytes).length % 4 ≠ 1 := by
    rw [encodeBytes, List.length_map]
    exact length_split_mod bytes
  have hvalues : values 0 (encodeBytes bytes) = .ok (split bytes) :=
    values_map_symbol _ (fun _ => lt_of_mem_split) 0
  simp only [decodeBytes, if_neg hlen, hvalues, join?_split]

/-- The bytes of a token are its symbols. -/
theorem utf8_encode (bytes : Bytes) : Utf8.encode (encode bytes) = encodeBytes bytes := by
  rw [encode, Utf8.encode_ofList, List.flatMap_map]
  -- every symbol is a character of one byte
  have hone : ∀ b ∈ encodeBytes bytes, String.utf8EncodeChar (Char.ofNat b.toNat) = [b] := by
    intro b hb
    obtain ⟨n, hn, rfl⟩ := List.mem_map.1 hb
    exact Utf8.utf8EncodeChar_ofNat (symbol_lt (lt_of_mem_split hn))
  rw [List.flatMap_congr hone, List.flatMap_singleton']

/-- Every list of bytes reads back from its token. -/
theorem decode_encode (bytes : Bytes) : decode (encode bytes) = .ok bytes := by
  rw [decode, utf8_encode, decodeBytes_encodeBytes]

/-! ## Canonical tokens -/

/-- A value that a byte stands for has that byte as its symbol. -/
theorem symbol_of_value? {b : UInt8} {n : Nat} (h : value? b = some n) : n < 64 ∧ symbol n = b := by
  -- there are no more than 256 bytes, so all of them are tried
  have all : ∀ m < 256, ∀ n ∈ value? (UInt8.ofNat m), n < 64 ∧ symbol n = UInt8.ofNat m := by
    decide +kernel
  have hb := all b.toNat b.toNat_lt n (by rwa [UInt8.ofNat_toNat])
  rwa [UInt8.ofNat_toNat] at hb

/-- Values that were read are those of the symbols. -/
theorem map_symbol_of_values {offset : Nat} {bytes : Bytes} {ns : List Nat}
    (h : values offset bytes = .ok ns) : ns.map symbol = bytes ∧ ∀ n ∈ ns, n < 64 := by
  induction bytes generalizing offset ns with
  | nil =>
    obtain rfl := Except.ok.inj h
    exact ⟨rfl, nofun⟩
  | cons b bytes ih =>
    rw [values] at h
    -- a byte without a value ends the reading
    cases hb : value? b with
    | none => simp [hb] at h
    | some n =>
      cases hrest : values (offset + 1) bytes with
      | error fault => simp [hb, hrest, Except.map] at h
      | ok ms =>
        simp only [hb, hrest, Except.map, Except.ok.injEq] at h
        subst h
        obtain ⟨hn, hsymbol⟩ := symbol_of_value? hb
        obtain ⟨hmap, hlt⟩ := ih hrest
        exact ⟨by rw [List.map_cons, hsymbol, hmap], List.forall_mem_cons.2 ⟨hn, hlt⟩⟩

/-- Values that join to bytes are those that the bytes split into. -/
theorem split_of_join? {ns : List Nat} (hlt : ∀ n ∈ ns, n < 64) {bytes : Bytes}
    (h : join? ns = some bytes) : split bytes = ns := by
  fun_induction join? ns generalizing bytes with
  | case1 a b c d rest ih =>
    simp only [List.forall_mem_cons] at hlt
    obtain ⟨ha, hb, hc, hd, hrest⟩ := hlt
    obtain ⟨joined, hjoined, hbytes⟩ := Option.bind_eq_some_iff.1 h
    obtain rfl := Option.some.inj hbytes
    simp only [split, UInt8.toNat_ofNat', ih hrest hjoined, List.cons.injEq, and_true]
    omega
  -- two bytes at the end; the last value has two bits that are zero
  | case2 a b c hfill =>
    simp only [List.forall_mem_cons] at hlt
    obtain ⟨ha, hb, hc, -⟩ := hlt
    obtain rfl := Option.some.inj h
    simp only [split, UInt8.toNat_ofNat', List.cons.injEq, and_true]
    omega
  | case3 => cases h
  -- one byte at the end; the last value has four bits that are zero
  | case4 a b hfill =>
    simp only [List.forall_mem_cons] at hlt
    obtain ⟨ha, hb, -⟩ := hlt
    obtain rfl := Option.some.inj h
    simp only [split, UInt8.toNat_ofNat', List.cons.injEq, and_true]
    omega
  | case5 => cases h
  | case6 => cases h
  | case7 =>
    obtain rfl := Option.some.inj h
    rfl

/-- Bytes that decode are the symbols of what they decode to. -/
theorem encodeBytes_of_decodeBytes {bytes decoded : Bytes} (h : decodeBytes bytes = .ok decoded) :
    encodeBytes decoded = bytes := by
  rw [decodeBytes] at h
  split at h
  · cases h
  · cases hvalues : values 0 bytes with
    | error fault => simp [hvalues] at h
    | ok ns =>
      cases hjoin : join? ns with
      | none => simp [hvalues, hjoin] at h
      | some joined =>
        simp only [hvalues, hjoin, Except.ok.injEq] at h
        subst h
        -- each value goes back to the byte it was read from, and the bytes back to the values
        obtain ⟨hmap, hlt⟩ := map_symbol_of_values hvalues
        rw [encodeBytes, split_of_join? hlt hjoin, hmap]

/-- A token that reads as some bytes is the one that is written for them. -/
theorem encode_of_decode {token : String} {bytes : Bytes} (h : decode token = .ok bytes) :
    encode bytes = token :=
  Utf8.encode_injective ((utf8_encode bytes).trans (encodeBytes_of_decodeBytes h))

/-! ## Bits in groups of six -/

/-- The symbols, by their values. -/
def alphabet : String := "ABCDEFGHIJKLMNOPQRSTUVWXYZabcdefghijklmnopqrstuvwxyz0123456789-_"

/-- The bits of some numbers, `width` of each number and the highest first. -/
def bits (width : Nat) (ns : List Nat) : List Bool :=
  ns.flatMap fun n => (List.range width).reverse.map n.testBit

/-- A token spells bytes: its symbols stand for their bits in groups of six, and fewer than
    six zeros fill the last group up. -/
def Spells (token : String) (bytes : Bytes) : Prop :=
  ∃ ns fill, token.toList.map some = ns.map (alphabet.toList[·]?) ∧ fill < 6 ∧
    bits 6 ns = bits 8 (bytes.map UInt8.toNat) ++ List.replicate fill false

/-- Values are written one behind the other. -/
private theorem bits_append (width : Nat) (ns ms : List Nat) :
    bits width (ns ++ ms) = bits width ns ++ bits width ms :=
  List.flatMap_append

/-- Four values of six bits hold three bytes. -/
private theorem bits_three {a b c : Nat} (ha : a < 256) (hb : b < 256) (hc : c < 256) :
    bits 6 [a / 4, a % 4 * 16 + b / 16, b % 16 * 4 + c / 64, c % 64] = bits 8 [a, b, c] := by
  simp [bits, Nat.testBit_eq_decide_div_mod_eq, List.range_succ]
  omega

/-- Three values of six bits hold two bytes, and two bits to spare. -/
private theorem bits_two {a b : Nat} (ha : a < 256) (hb : b < 256) :
    bits 6 [a / 4, a % 4 * 16 + b / 16, b % 16 * 4] =
      bits 8 [a, b] ++ List.replicate 2 false := by
  simp [bits, Nat.testBit_eq_decide_div_mod_eq, List.range_succ]
  omega

/-- Two values of six bits hold a byte, and four bits to spare. -/
private theorem bits_one {a : Nat} (ha : a < 256) :
    bits 6 [a / 4, a % 4 * 16] = bits 8 [a] ++ List.replicate 4 false := by
  simp [bits, Nat.testBit_eq_decide_div_mod_eq, List.range_succ]
  omega

/-- The values that bytes are split into spell the same bits, filled up with zeros. -/
theorem bits_split (bytes : Bytes) :
    ∃ fill < 6, bits 6 (split bytes) =
      bits 8 (bytes.map UInt8.toNat) ++ List.replicate fill false := by
  fun_induction split bytes with
  | case1 a b c rest ih =>
    obtain ⟨fill, hfill, hrest⟩ := ih
    refine ⟨fill, hfill, ?_⟩
    -- a whole group is written, and the rest is written behind it
    have hgroup := bits_three a.toNat_lt b.toNat_lt c.toNat_lt
    have hleft := bits_append 6 [a.toNat / 4, a.toNat % 4 * 16 + b.toNat / 16,
      b.toNat % 16 * 4 + c.toNat / 64, c.toNat % 64] (split rest)
    have hright := bits_append 8 [a.toNat, b.toNat, c.toNat] (rest.map UInt8.toNat)
    rw [hgroup, hrest, ← List.append_assoc, ← hright] at hleft
    exact hleft
  | case2 a b => exact ⟨2, by decide, bits_two a.toNat_lt b.toNat_lt⟩
  | case3 a => exact ⟨4, by decide, bits_one a.toNat_lt⟩
  | case4 => exact ⟨0, by decide, rfl⟩

/-- The token of bytes spells them. -/
theorem spells_encode (bytes : Bytes) : Spells (encode bytes) bytes := by
  obtain ⟨fill, hfill, hbits⟩ := bits_split bytes
  refine ⟨split bytes, fill, ?_, hfill, hbits⟩
  -- the table of symbols and the alphabet say the same
  have all : ∀ n < 64, alphabet.toList[n]? = some (Char.ofNat (symbol n).toNat) := by decide
  rw [encode, String.toList_ofList, encodeBytes, List.map_map, List.map_map]
  exact List.map_congr_left fun n hn => (all n (lt_of_mem_split hn)).symm

/-- A token holds nothing but letters, digits, `-` and `_`. -/
theorem urlSafe_of_mem_encode {bytes : Bytes} {c : Char} (h : c ∈ (encode bytes).toList) :
    c.isAlphanum = true ∨ c = '-' ∨ c = '_' := by
  have all : ∀ n < 64, (Char.ofNat (symbol n).toNat).isAlphanum = true ∨
      Char.ofNat (symbol n).toNat = '-' ∨ Char.ofNat (symbol n).toNat = '_' := by decide
  rw [encode, String.toList_ofList, encodeBytes, List.map_map] at h
  obtain ⟨n, hn, rfl⟩ := List.mem_map.1 h
  exact all n (lt_of_mem_split hn)

end Base64Url

end EntityStore
