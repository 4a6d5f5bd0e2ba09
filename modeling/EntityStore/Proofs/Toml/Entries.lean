import EntityStore.Proofs.Json.Literal
import EntityStore.Proofs.Toml.Quoted
import Mathlib.Data.List.TakeDrop
import Mathlib.Data.List.TakeWhile
import Mathlib.Data.List.Nodup

/-! # Documents of entries read back

A document may hold nothing but entries, each with a bare key and a value on a line of its own.
If the values can be read back in front of the end of a line, so can the document: it makes the
table with these keys and values.  Whole numbers are such values.

* `Toml.readWord_toDigits`  a number from its digits
* `Toml.readLine_entry`     an entry from its line
* `Toml.parse?_entries`     the table from a document of entries -/

namespace EntityStore

namespace Toml

/-- A test that one of two characters passes and the other does not tells them apart. -/
theorem ne_of_test {p : Char → Bool} {c d : Char} (hc : p c = true) (hd : p d = false) :
    c ≠ d := by
  rintro rfl
  rw [hc] at hd
  cases hd

/-! ## Numbers -/

section Digits

variable {ds : List Char}

/-- Digits without an underscore are read as they stand. -/
theorem digits?_of_isDigit (hne : ds ≠ []) (h : ∀ c ∈ ds, c.isDigit = true) :
    digits? Char.isDigit ds = some ds := by
  induction ds with
  | nil => exact absurd rfl hne
  | cons c ds ih =>
    obtain ⟨hc, hds⟩ := List.forall_mem_cons.1 h
    rcases ds with _ | ⟨d, ds⟩
    · rw [digits?, if_pos hc]
    · -- a digit is no underscore
      have hd : d ≠ '_' := ne_of_test (hds d List.mem_cons_self) rfl
      rw [digits?, if_pos hc, ih (List.cons_ne_nil d ds) hds, Option.map_some]
      · exact List.cons_ne_nil d ds
      · exact fun rest heq => hd (List.cons.inj heq).1

/-- A run of digits does not start with anything else. -/
theorem ne_cons_of_isDigit (h : ∀ d ∈ ds, d.isDigit = true) {c : Char} (hc : c.isDigit = false)
    (word : List Char) : ds ≠ c :: word := by
  rintro rfl
  exact ne_of_test (h c List.mem_cons_self) hc rfl

theorem expect?_of_isDigit {c : Char} (hc : c.isDigit = false)
    (h : ∀ d ∈ ds, d.isDigit = true) : expect? c ds = none := by
  cases ds with
  | nil => rfl
  | cons d ds => rw [expect?, if_neg (ne_of_test (h d List.mem_cons_self) hc)]

/-- Digits alone are no date. -/
theorem dropDate?_of_isDigit (h : ∀ d ∈ ds, d.isDigit = true) : dropDate? ds = none := by
  rw [dropDate?, number?]
  split_ifs
  · have hrest : ∀ d ∈ ds.drop 4, d.isDigit = true := fun d hd => h d (List.mem_of_mem_drop hd)
    simp only [Option.bind_eq_bind, Option.bind_some, expect?_of_isDigit (c := '-') rfl hrest,
      Option.bind_none]
  · rfl

/-- Digits alone are no time of day. -/
theorem dropTime?_of_isDigit (h : ∀ d ∈ ds, d.isDigit = true) : dropTime? ds = none := by
  rw [dropTime?, number?]
  split_ifs
  · have hrest : ∀ d ∈ ds.drop 2, d.isDigit = true := fun d hd => h d (List.mem_of_mem_drop hd)
    simp only [Option.bind_eq_bind, Option.bind_some, expect?_of_isDigit (c := ':') rfl hrest,
      Option.bind_none]
  · rfl

/-- Digits have no sign in front. -/
theorem splitSign_of_isDigit (h : ∀ d ∈ ds, d.isDigit = true) : splitSign ds = (false, ds) := by
  rw [splitSign]
  · exact ne_cons_of_isDigit h rfl
  · exact ne_cons_of_isDigit h rfl

/-- Digits alone are no float, which has a point or an exponent behind them. -/
theorem isFloat_of_isDigit (h : ∀ d ∈ ds, d.isDigit = true) : isFloat ds = false := by
  have hspan : ds.span (fun c => c.isDigit || c == '_') = (ds, []) := by
    have hall : ∀ d ∈ ds, (d.isDigit || d == '_') = true := fun d hd => by rw [h d hd]; rfl
    rw [List.span_eq_takeWhile_dropWhile, List.takeWhile_eq_self_iff.2 hall,
      List.dropWhile_eq_nil_iff.2 hall]
  rw [isFloat, splitSign_of_isDigit h]
  simp only [ne_cons_of_isDigit h (c := 'i') rfl, ne_cons_of_isDigit h (c := 'n') rfl, or_self,
    if_false, hspan]
  -- nothing is left for what has to stand behind the whole digits
  cases wholeDigits? ds <;> rfl

theorem ofDigits_of_isDigit (h : ∀ d ∈ ds, d.isDigit = true) :
    ofDigits 10 ds = Nat.ofDigitChars 10 ds 0 := by
  refine List.foldl_ext _ _ _ fun n d hd => ?_
  rw [digitValue, if_pos (h d hd), Nat.mul_comm]

end Digits

/-- A number below two to the sixty-third is an integer of the language. -/
theorem integer?_natCast {n : Nat} (hn : n < 0x8000000000000000) :
    integer? n = some (.integer n) := by
  rw [integer?, if_pos (by omega)]

section Numbers

variable {n : Nat}

theorem isDigit_of_mem_toDigits {c : Char} (h : c ∈ Nat.toDigits 10 n) : c.isDigit = true :=
  Nat.isDigit_of_mem_toDigits (by decide) (by decide) h

/-- The digits of a number have its value. -/
theorem ofDigits_toDigits (n : Nat) : ofDigits 10 (Nat.toDigits 10 n) = n := by
  rw [ofDigits_of_isDigit fun _ => isDigit_of_mem_toDigits,
    Nat.ofDigitChars_toDigits (by decide) (by decide)]

/-- A number is written without zeros in front of it. -/
theorem wholeDigits?_toDigits (n : Nat) :
    wholeDigits? (Nat.toDigits 10 n) = some (Nat.toDigits 10 n) := by
  have hzero : ¬ ((Nat.toDigits 10 n).head? = some '0' ∧ (Nat.toDigits 10 n).length ≠ 1) := by
    rintro ⟨hhead, hlength⟩
    -- only the number zero starts with a zero, and then that is its one digit
    by_cases hn : n = 0
    · subst hn
      exact hlength rfl
    · refine Decimal.head?_digits hn ?_
      rw [Decimal.digits, List.head?_map, hhead]
      rfl
  rw [wholeDigits?, digits?_of_isDigit Nat.toDigits_ne_nil fun _ => isDigit_of_mem_toDigits]
  simp only [Option.bind_eq_bind, Option.bind_some, if_neg hzero]
  rfl

/-- A word of digits is an integer. -/
theorem integerOfWord?_toDigits (hn : n < 0x8000000000000000) :
    integerOfWord? (Nat.toDigits 10 n) = some (.integer n) := by
  have hdigits (d : Char) (hd : d ∈ Nat.toDigits 10 n) : d.isDigit = true :=
    isDigit_of_mem_toDigits hd
  have hvalue := ofDigits_toDigits n
  have hwhole := wholeDigits?_toDigits n
  generalize Nat.toDigits 10 n = ds at hdigits hvalue hwhole
  -- a prefix for another base has a letter behind its zero
  have hprefix (c : Char) (hc : c.isDigit = false) (word : List Char) : ds ≠ '0' :: c :: word := by
    rintro rfl
    exact ne_cons_of_isDigit (List.forall_mem_cons.1 hdigits).2 hc word rfl
  rw [integerOfWord?, splitSign_of_isDigit hdigits]
  · dsimp only
    rw [hwhole, Option.bind_some, hvalue, if_neg Bool.false_ne_true, integer?_natCast hn]
  · exact hprefix 'x' rfl
  · exact hprefix 'o' rfl
  · exact hprefix 'b' rfl

/-- A number is an integer if it has a place in 64 bits. -/
theorem ofWord?_toDigits (hn : n < 0x8000000000000000) :
    ofWord? (Nat.toDigits 10 n) = some (.integer n) := by
  have hdigits (d : Char) (hd : d ∈ Nat.toDigits 10 n) : d.isDigit = true :=
    isDigit_of_mem_toDigits hd
  -- digits alone are no date, no time and no float
  have hdate : isDateTime (Nat.toDigits 10 n) = false := by
    rw [isDateTime, dropDate?_of_isDigit hdigits, dropTime?_of_isDigit hdigits]
    rfl
  rw [ofWord?, if_neg (ne_cons_of_isDigit hdigits rfl _), if_neg (ne_cons_of_isDigit hdigits rfl _),
    hdate, isFloat_of_isDigit hdigits, if_neg Bool.false_ne_true, if_neg Bool.false_ne_true,
    integerOfWord?_toDigits hn]

end Numbers

/-! ## Values -/

/-- A run of characters ends at the first one that does not belong to it. -/
theorem span_append_cons {p : Char → Bool} {cs rest : List Char} {c : Char}
    (hcs : ∀ d ∈ cs, p d = true) (hc : p c = false) :
    (cs ++ c :: rest).span p = (cs, c :: rest) := by
  have hstop : ¬ p c = true := by rw [hc]; decide
  rw [List.span_eq_takeWhile_dropWhile, List.takeWhile_append_of_pos hcs,
    List.takeWhile_cons_of_neg hstop, List.append_nil, List.dropWhile_append_of_pos hcs,
    List.dropWhile_cons_of_neg hstop]

/-- Digits are read up to a character that no word has, and not as a date. -/
theorem readWord_toDigits {n : Nat} (hn : n < 0x8000000000000000) {c : Char}
    (hc : isWordChar c = false) (rest : List Char) :
    readWord (Nat.toDigits 10 n ++ c :: rest) = some (.integer n, c :: rest) := by
  have hdigits (d : Char) (hd : d ∈ Nat.toDigits 10 n) : d.isDigit = true :=
    isDigit_of_mem_toDigits hd
  have hword (d : Char) (hd : d ∈ Nat.toDigits 10 n) : isWordChar d = true := by
    simp [isWordChar, Char.isAlphanum, hdigits d hd]
  -- a date has a hyphen in it
  have hdate : isDate (Nat.toDigits 10 n) = false := by
    rw [isDate, dropDate?_of_isDigit hdigits]
    rfl
  rw [readWord]
  simp only [span_append_cons hword hc, hdate, Bool.false_eq_true, if_false, ofWord?_toDigits hn,
    Option.map_some]

/-- A number is read from its digits. -/
theorem readValue_toDigits {n : Nat} (hn : n < 0x8000000000000000) {c : Char}
    (hc : isWordChar c = false) (depth : Nat) (rest : List Char) :
    readValue depth (Nat.toDigits 10 n ++ c :: rest) = some (.integer n, c :: rest) := by
  obtain ⟨d, ds, hds⟩ := List.exists_cons_of_ne_nil (Nat.toDigits_ne_nil (b := 10) (n := n))
  have hd : d.isDigit = true := isDigit_of_mem_toDigits (hds ▸ List.mem_cons_self)
  have hword := readWord_toDigits hn hc rest
  rw [hds, List.cons_append] at hword ⊢
  rw [readValue.eq_def]
  -- a digit opens none of the other kinds of values
  split
  case h_7 => exact hword
  case h_1 heq => exact absurd (List.cons.inj heq).1 (ne_of_test hd rfl)
  case h_2 heq => exact absurd (List.cons.inj heq).1 (ne_of_test hd rfl)
  case h_3 heq => exact absurd (List.cons.inj heq).1 (ne_of_test hd rfl)
  case h_4 heq => exact absurd (List.cons.inj heq).1 (ne_of_test hd rfl)
  case h_5 heq => exact absurd (List.cons.inj heq).1 (ne_of_test hd rfl)
  case h_6 heq => exact absurd (List.cons.inj heq).1 (ne_of_test hd rfl)

/-- A string is read from the form that it is written in. -/
theorem readValue_quote (s : String) {rest : List Char} (hquote : rest.head? ≠ some '\x22')
    (hsingle : rest.head? ≠ some '\'') (depth : Nat) :
    readValue depth ((quote s).toList ++ rest) = some (.string s, rest) := by
  have hread := readString_quote s hquote hsingle
  rcases head?_quote s with h | h <;> obtain ⟨cs, hcs⟩ := List.head?_eq_some_iff.1 h <;>
    rw [hcs, List.cons_append] at hread ⊢ <;> rw [readValue, hread] <;> rfl

/-! ## Entries -/

/-- An entry of a document: a key and its value as it is written. -/
structure Entry where
  key : String
  value : Toml
  text : List Char

namespace Entry

/-- An entry on a line of its own. -/
def line (e : Entry) : List Char := e.key.toList ++ ' ' :: '=' :: ' ' :: (e.text ++ ['\n'])

/-- The pair that is read from the line. -/
def pair (e : Entry) : TomlPair := ⟨[], e.key, e.value⟩

/-- Whether an entry reads back: its key is bare and its value is read up to the end of the
    line. -/
structure Readable (e : Entry) : Prop where
  nonempty : e.key.toList ≠ []
  bare : ∀ c ∈ e.key.toList, isBareKeyChar c = true
  start : ∀ c, e.text.head? = some c → isSpace c = false
  reads : ∀ rest, readValue (maxDepth - 1) (e.text ++ '\n' :: rest) =
    some (e.value, '\n' :: rest)

end Entry

variable {e : Entry}

theorem isSpace_of_test {p : Char → Bool} {c : Char} (hc : p c = true) (hspace : p ' ' = false)
    (htab : p '\t' = false) : isSpace c = false := by
  simp [isSpace, ne_of_test hc hspace, ne_of_test hc htab]

theorem skipSpaces_of_not_isSpace {c : Char} (h : isSpace c = false) (cs : List Char) :
    skipSpaces (c :: cs) = c :: cs :=
  List.dropWhile_cons_of_neg (by rw [h]; decide)

/-- Nothing is skipped in front of a key. -/
theorem skipBlankLines_of_isBareKeyChar {c : Char} (h : isBareKeyChar c = true) (fuel : Nat)
    (cs : List Char) : skipBlankLines fuel (c :: cs) = c :: cs := by
  have hspace : isSpace c = false := isSpace_of_test h rfl rfl
  cases fuel with
  | zero => rfl
  | succ fuel =>
    simp [skipBlankLines, skipSpaces_of_not_isSpace hspace, skipComment, dropNewline?,
      ne_of_test h (d := '#') rfl, ne_of_test h (d := '\n') rfl, ne_of_test h (d := '\r') rfl]

/-- A bare key starts with a character of bare keys. -/
theorem exists_cons_of_bare {key : String} (hne : key.toList ≠ [])
    (hbare : ∀ c ∈ key.toList, isBareKeyChar c = true) :
    ∃ c cs, key.toList = c :: cs ∧ isBareKeyChar c = true := by
  obtain ⟨c, cs, hcs⟩ := List.exists_cons_of_ne_nil hne
  exact ⟨c, cs, hcs, hbare c (hcs ▸ List.mem_cons_self)⟩

/-- A bare key is read up to the blank behind it. -/
theorem readKey_bare {key : String} (hne : key.toList ≠ [])
    (hbare : ∀ c ∈ key.toList, isBareKeyChar c = true) (rest : List Char) :
    readKey (key.toList ++ ' ' :: rest) = some (key, ' ' :: rest) := by
  have hspan : (key.toList ++ ' ' :: rest).span isBareKeyChar = (key.toList, ' ' :: rest) :=
    span_append_cons hbare rfl
  obtain ⟨c, cs, hcs, hc⟩ := exists_cons_of_bare hne hbare
  rw [readKey.eq_def]
  split
  -- a key that starts with a quotation mark or an apostrophe is read as a string
  case h_1 heq =>
    rw [hcs, List.cons_append] at heq
    exact absurd (List.cons.inj heq).1 (ne_of_test hc rfl)
  case h_2 heq =>
    rw [hcs, List.cons_append] at heq
    exact absurd (List.cons.inj heq).1 (ne_of_test hc rfl)
  case h_3 =>
    rw [hspan]
    simp only [hcs]
    rw [← hcs, String.ofList_toList]

/-- The key of an entry is read up to the equals sign. -/
theorem readPath_bare {key : String} (hne : key.toList ≠ [])
    (hbare : ∀ c ∈ key.toList, isBareKeyChar c = true) (rest : List Char) :
    readPath (key.toList ++ ' ' :: '=' :: rest) = some (([], key), '=' :: rest) := by
  have hskip : skipSpaces (key.toList ++ ' ' :: '=' :: rest) =
      key.toList ++ ' ' :: '=' :: rest := by
    obtain ⟨c, cs, hcs, hc⟩ := exists_cons_of_bare hne hbare
    rw [hcs]
    exact skipSpaces_of_not_isSpace (isSpace_of_test hc rfl rfl) _
  -- one key, since no dot follows it
  have hkeys : readKeys (maxDepth - 1) (key.toList ++ ' ' :: '=' :: rest) =
      some ([key], '=' :: rest) := by
    have hdepth : maxDepth - 1 = 78 + 1 := rfl
    rw [hdepth, readKeys, hskip, readKey_bare hne hbare]
    rfl
  rw [readPath, hkeys]
  rfl

/-- Whole numbers read back. -/
theorem Entry.readable_integer {key : String} (hne : key.toList ≠ [])
    (hbare : key.toList.all isBareKeyChar = true) {n : Nat} (hn : n < 0x8000000000000000) :
    Entry.Readable ⟨key, .integer n, Nat.toDigits 10 n⟩ where
  nonempty := hne
  bare := List.all_eq_true.1 hbare
  start c hc := by
    have hdigit : c.isDigit = true := isDigit_of_mem_toDigits (List.mem_of_head? hc)
    exact isSpace_of_test hdigit rfl rfl
  reads rest := readValue_toDigits hn rfl (maxDepth - 1) rest

/-- Strings read back. -/
theorem Entry.readable_string {key : String} (hne : key.toList ≠ [])
    (hbare : key.toList.all isBareKeyChar = true) (s : String) :
    Entry.Readable ⟨key, .string s, (quote s).toList⟩ where
  nonempty := hne
  bare := List.all_eq_true.1 hbare
  start c hc := by
    rcases head?_quote s with h | h <;> obtain rfl := Option.some.inj (h.symm.trans hc) <;> rfl
  reads rest := readValue_quote s (by simp) (by simp) (maxDepth - 1)

/-- An entry is read from its line. -/
theorem readLine_entry (h : e.Readable) (rest : List Char) :
    readLine (e.line ++ rest) = some (.pair e.pair, '\n' :: rest) := by
  have hline : e.line ++ rest =
      e.key.toList ++ ' ' :: '=' :: ' ' :: (e.text ++ '\n' :: rest) := by
    simp [Entry.line]
  have hvalue : skipSpaces (' ' :: (e.text ++ '\n' :: rest)) = e.text ++ '\n' :: rest := by
    have hstart := h.start
    rw [skipSpaces, List.dropWhile_cons_of_pos rfl]
    cases htext : e.text with
    | nil => rfl
    | cons c cs => exact skipSpaces_of_not_isSpace (hstart c (by rw [htext]; rfl)) _
  have hpair : readPair (readValue (maxDepth - 1)) (e.line ++ rest) =
      some (e.pair, '\n' :: rest) := by
    rw [readPair, hline, readPath_bare h.nonempty h.bare]
    simp only [Option.bind_eq_bind, Option.bind_some, hvalue, h.reads]
    rfl
  -- a bare key is not the bracket that opens a section
  obtain ⟨c, cs, hcs, hc⟩ := exists_cons_of_bare h.nonempty h.bare
  rw [readLine.eq_def]
  split
  case h_1 heq =>
    rw [hline, hcs, List.cons_append] at heq
    exact absurd (List.cons.inj heq).1 (ne_of_test hc rfl)
  case h_2 =>
    rw [hpair]
    rfl

/-! ## Documents -/

variable {entries : List Entry}

/-- The lines of entries are read as the pairs of those entries. -/
theorem readAll_lines (h : ∀ e ∈ entries, e.Readable) {fuel : Nat}
    (hfuel : entries.length < fuel) :
    readAll fuel (entries.flatMap Entry.line) = some (entries.map fun e => .pair e.pair) := by
  induction entries generalizing fuel with
  | nil =>
    obtain ⟨fuel, rfl⟩ := Nat.exists_eq_succ_of_ne_zero (Nat.ne_of_gt hfuel)
    rfl
  | cons e entries ih =>
    obtain ⟨fuel, rfl⟩ := Nat.exists_eq_succ_of_ne_zero (Nat.ne_zero_of_lt hfuel)
    obtain ⟨he, hentries⟩ := List.forall_mem_cons.1 h
    have hread := readLine_entry he (entries.flatMap Entry.line)
    have hend : dropLineEnd? ('\n' :: entries.flatMap Entry.line) =
        some (entries.flatMap Entry.line) := rfl
    obtain ⟨c, cs, hcs, hc⟩ := exists_cons_of_bare he.nonempty he.bare
    -- the line starts with its key, so no blank line is skipped in front of it
    obtain ⟨more, hmore⟩ : ∃ more, e.line ++ entries.flatMap Entry.line = c :: more := by
      rw [Entry.line, hcs]
      exact ⟨_, rfl⟩
    rw [List.flatMap_cons, readAll, hmore, skipBlankLines_of_isBareKeyChar hc]
    rw [hmore] at hread
    simp only [hread, hend, ih hentries (Nat.lt_of_succ_lt_succ hfuel), Option.bind_eq_bind,
      Option.bind_some]
    rfl

/-- There are at least as many characters as lines, so there is fuel for every line. -/
theorem length_le_length_lines (entries : List Entry) :
    entries.length ≤ (entries.flatMap Entry.line).length := by
  induction entries with
  | nil => exact Nat.zero_le _
  | cons e entries ih =>
    rw [List.flatMap_cons, List.length_append, List.length_cons, Entry.line, List.length_append,
      List.length_cons]
    omega

/-- A document of entries is read as the pairs of those entries. -/
theorem lines?_lines (h : ∀ e ∈ entries, e.Readable) :
    lines? (String.ofList (entries.flatMap Entry.line)) =
      some (entries.map fun e => .pair e.pair) := by
  have hread := readAll_lines h (Nat.lt_succ_of_le (length_le_length_lines entries))
  rw [lines?, String.toList_ofList]
  -- a key does not start with a byte order mark
  split
  case h_1 rest heq =>
    cases entries with
    | nil => cases heq
    | cons e entries =>
      have he := h e List.mem_cons_self
      obtain ⟨c, cs, hcs, hc⟩ := exists_cons_of_bare he.nonempty he.bare
      rw [List.flatMap_cons, Entry.line, hcs] at heq
      exact absurd (List.cons.inj heq).1 (ne_of_test hc rfl)
  case h_2 => exact hread

/-- Entries of different keys are put behind one another. -/
theorem insertAll?_pairs (t : TomlTable)
    (h : (t.map Prod.fst ++ entries.map Entry.key).Nodup) :
    TomlTable.insertAll? (entries.map Entry.pair) t =
      some (t ++ entries.map fun e => (e.key, e.value)) := by
  induction entries generalizing t with
  | nil => rw [List.map_nil, List.map_nil, List.append_nil, TomlTable.insertAll?]
  | cons e entries ih =>
    -- the key is not in the table yet
    have hnew : t.lookup e.key = none := by
      rw [List.lookup_eq_none_iff]
      intro p hp
      have hne := (List.nodup_append.1 h).2.2 p.1 (List.mem_map_of_mem hp) e.key
        List.mem_cons_self
      simpa using Ne.symm hne
    have hinsert : TomlTable.insert? e.pair.key e.pair.value e.pair.path t =
        some (t ++ [(e.key, e.value)]) := by
      rw [Entry.pair, TomlTable.insert?, hnew]
      rfl
    have htail := ih (t ++ [(e.key, e.value)]) (by simpa using h)
    rw [List.map_cons, TomlTable.insertAll?, hinsert, Option.bind_eq_bind, Option.bind_some, htail,
      List.append_assoc]
    rfl

/-- Pairs in front of every section are all of the root table. -/
theorem sections_pairs (pairs : List TomlPair) :
    TomlTable.sections (pairs.map .pair) = (pairs, []) := by
  induction pairs with
  | nil => rfl
  | cons p pairs ih => rw [List.map_cons, TomlTable.sections, ih]

/-- A document of entries makes the table of their keys and values. -/
theorem parse?_entries (h : ∀ e ∈ entries, e.Readable)
    (hkeys : (entries.map Entry.key).Nodup) :
    parse? (String.ofList (entries.flatMap Entry.line)) =
      some (entries.map fun e => (e.key, e.value)) := by
  -- no entry opens a section, so all of them are of the root table
  have hsections := sections_pairs (entries.map Entry.pair)
  rw [List.map_map] at hsections
  have hlines : lines? (String.ofList (entries.flatMap Entry.line)) =
      some (entries.map (TomlLine.pair ∘ Entry.pair)) := lines?_lines h
  rw [parse?, hlines, Option.bind_eq_bind, Option.bind_some, TomlTable.ofLines?, hsections]
  simp only [insertAll?_pairs [] (by simpa using hkeys), List.nil_append, Option.bind_eq_bind,
    Option.bind_some]
  rfl

end Toml

end EntityStore
