import EntityStore.Toml.Quoted
import EntityStore.Toml.Reader
import Mathlib.Data.List.TakeWhile
import Mathlib.Tactic.SplitIfs

/-! # Strings read back from every form they are written in

A string is written in the first of several forms that can hold it.  Each form is read up to its
closing marks: with escapes one character after the other, as an escape tells which character it
stands for; without escapes as it stands, since the form is not taken for a text that would
close it early.  Between marks for several lines that hangs on the runs of marks in the text: two
of them may stand in a row, and three would close it.

* `Toml.readEscape_of_escape?`  a character from its escape
* `Toml.escapeAll_cons_cases`   how one character is written with escapes
* `Toml.readBasic_escapeAll`, `Toml.readLiteral_append`  strings on one line
* `Toml.readLines_escapeAll`, `Toml.readLines_append`    strings on several lines
* `Toml.readString_quote`       any string from the form that it is written in -/

namespace EntityStore

namespace Toml

/-! ## Characters -/

/-- What is no control character stands for itself, unless it ends a line. -/
theorem isText_of_not_isControl {c : Char} (h : isControl c = false) (hline : c ≠ '\n') :
    isText c = true := by
  rw [isControl, Bool.or_eq_false_iff] at h
  obtain ⟨hlow, hdel⟩ := h
  by_cases htab : c = '\t'
  · subst htab
    rfl
  · -- below the blank only the tab and the end of a line are no control characters
    have hspace : ¬ c < ' ' := by simpa [htab, hline] using hlow
    have hle : ' ' ≤ c := Char.not_lt.1 hspace
    simpa [isText, htab, hle] using hdel

theorem dropNewline?_of_isText {c : Char} (h : isText c = true) (cs : List Char) :
    dropNewline? (c :: cs) = none := by
  have hfeed : c ≠ '\n' := by rintro rfl; exact absurd h (by decide)
  have hreturn : c ≠ '\r' := by rintro rfl; exact absurd h (by decide)
  simp [dropNewline?, hfeed, hreturn]

/-- A control character is told by its code. -/
theorem codePoint?_controlDigits {c : Char} (h : isControl c = true) (rest : List Char) :
    codePoint? 4 (controlDigits c ++ rest) = some (c, rest) := by
  -- decided on the codes below 128, among which all control characters are
  have all : ∀ n < 128, (controlDigits (Char.ofNat n)).length = 4 ∧
      (controlDigits (Char.ofNat n)).all isHexDigit = true ∧
      ofDigits 16 (controlDigits (Char.ofNat n)) = n := by decide +kernel
  have hlt : c.toNat < 128 := by
    rw [isControl, Bool.or_eq_true, beq_iff_eq] at h
    rcases h with h | rfl
    · simp only [Bool.and_eq_true, decide_eq_true_eq] at h
      exact Nat.lt_trans (UInt32.lt_iff_toNat_lt.1 h.1.1) (by decide)
    · decide
  obtain ⟨hlength, hdigits, hcode⟩ := all c.toNat hlt
  rw [Char.ofNat_toNat] at hlength hdigits hcode
  have hvalid : c.toNat.isValidChar := Or.inl (by omega)
  simp only [codePoint?, List.take_left' hlength, List.drop_left' hlength, hcode]
  rw [if_pos ⟨hlength, hdigits, hvalid⟩, Char.ofNat_toNat]

/-- The escape of a character is a backslash and what stands for the character behind it. -/
theorem readEscape_of_escape? {multiline : Bool} {c : Char} {written : List Char}
    (h : escape? multiline c = some written) :
    ∃ letters, written = '\\' :: letters ∧
      ∀ rest, readEscape (letters ++ rest) = some (c, rest) := by
  rw [escape?] at h
  split_ifs at h with hb ht hn hm hf hr hs hcontrol <;>
    obtain rfl := Option.some.inj h
  rotate_right
  · -- a control character without a letter of its own
    exact ⟨_, rfl, fun rest => codePoint?_controlDigits hcontrol rest⟩
  all_goals
    subst c
    exact ⟨_, rfl, fun rest => rfl⟩

/-- A character without an escape stands for itself, or ends a line where there are several. -/
theorem of_escape?_eq_none {multiline : Bool} {c : Char} (h : escape? multiline c = none) :
    c ≠ '\\' ∧ (isText c = true ∨ c = '\n' ∧ multiline = true) := by
  rw [escape?] at h
  split_ifs at h with hb ht hn hm hf hr hs hcontrol
  · subst hn
    exact ⟨by decide, .inr ⟨rfl, hm⟩⟩
  · exact ⟨hs, .inl (isText_of_not_isControl (Bool.eq_false_iff.2 hcontrol) hn)⟩

/-- What an escape is read from does not end a line. -/
theorem dropNewline?_of_readEscape {cs : List Char} {read : Char × List Char}
    (h : readEscape cs = some read) : dropNewline? (skipSpaces cs) = none := by
  rw [readEscape.eq_def] at h
  split at h
  case h_10 => cases h
  all_goals rfl

/-- How the first character of a text is written: a quotation mark as it stands while the run
    allows it, and anything else with an escape or as it stands. -/
theorem escapeAll_cons_cases (multiline : Bool) (allowed run : Nat) (c : Char) (cs : List Char) :
    (c = '\x22' ∧ run < allowed ∧
      escapeAll multiline allowed run (c :: cs) = c :: escapeAll multiline allowed (run + 1) cs) ∨
    (∃ letters, (∀ rest, readEscape (letters ++ rest) = some (c, rest)) ∧
      escapeAll multiline allowed run (c :: cs) =
        '\\' :: (letters ++ escapeAll multiline allowed 0 cs)) ∨
    (c ≠ '\x22' ∧ c ≠ '\\' ∧ (isText c = true ∨ c = '\n' ∧ multiline = true) ∧
      escapeAll multiline allowed run (c :: cs) = c :: escapeAll multiline allowed 0 cs) := by
  rw [escapeAll]
  by_cases hquote : c = '\x22'
  · subst hquote
    rw [if_pos rfl]
    by_cases hrun : run < allowed
    · exact .inl ⟨rfl, hrun, if_pos hrun⟩
    · exact .inr (.inl ⟨['\x22'], fun rest => rfl, if_neg hrun⟩)
  · -- anything else has an escape of its own or stands as it is
    rw [if_neg hquote]
    cases hescape : escape? multiline c with
    | some written =>
      obtain ⟨letters, rfl, hletters⟩ := readEscape_of_escape? hescape
      exact .inr (.inl ⟨letters, hletters, rfl⟩)
    | none =>
      obtain ⟨hslash, htext⟩ := of_escape?_eq_none hescape
      exact .inr (.inr ⟨hquote, hslash, htext, rfl⟩)

/-- Nothing is shorter for being written with escapes. -/
theorem length_le_length_escapeAll (multiline : Bool) (allowed run : Nat) (cs : List Char) :
    cs.length ≤ (escapeAll multiline allowed run cs).length := by
  induction cs generalizing run with
  | nil => exact Nat.zero_le _
  | cons c cs ih =>
    -- every character is written with one character at least
    rcases escapeAll_cons_cases multiline allowed run c cs with
      ⟨-, -, h⟩ | ⟨letters, -, h⟩ | ⟨-, -, -, h⟩
    · rw [h]
      exact Nat.succ_le_succ (ih (run + 1))
    · rw [h, List.length_cons, List.length_cons, List.length_append]
      exact Nat.succ_le_succ (Nat.le_trans (ih 0) (Nat.le_add_left _ _))
    · rw [h]
      exact Nat.succ_le_succ (ih 0)

/-! ## Strings on one line -/

/-- A string with escapes is read up to the quotation mark that closes it. -/
theorem readBasic_escapeAll (cs rest : List Char) {fuel : Nat} (hfuel : cs.length < fuel) :
    readBasic fuel (escapeAll false 0 0 cs ++ '\x22' :: rest) = some (cs, rest) := by
  induction cs generalizing fuel with
  | nil =>
    obtain ⟨fuel, rfl⟩ := Nat.exists_eq_succ_of_ne_zero (Nat.ne_of_gt hfuel)
    rfl
  | cons c cs ih =>
    obtain ⟨fuel, rfl⟩ := Nat.exists_eq_succ_of_ne_zero (Nat.ne_zero_of_lt hfuel)
    have htail := ih (Nat.lt_of_succ_lt_succ hfuel)
    rcases escapeAll_cons_cases false 0 0 c cs with
      ⟨-, hrun, -⟩ | ⟨letters, hletters, h⟩ | ⟨hquote, hslash, htext, h⟩
    · -- on one line every quotation mark has an escape
      exact absurd hrun (Nat.not_lt_zero 0)
    · rw [h, List.cons_append, List.append_assoc, readBasic, if_neg (by decide), if_pos rfl,
        hletters]
      simp only [Option.bind_eq_bind, Option.bind_some, htail]
      rfl
    · rcases htext with htext | ⟨-, hline⟩
      · rw [h, List.cons_append, readBasic, if_neg hquote, if_neg hslash, if_pos htext, htail]
        rfl
      · cases hline

/-! ## Runs of marks -/

/-- The longest run so far and the one that is going on, with one more character. -/
def extendRun (mark : Char) (runs : Nat × Nat) (c : Char) : Nat × Nat :=
  let run := if c = mark then runs.2 + 1 else 0
  (max runs.1 run, run)

theorem longestRun_eq (mark : Char) (cs : List Char) :
    longestRun mark cs = (cs.foldl (extendRun mark) (0, 0)).1 := rfl

/-- The longest run covers the one under way and the marks it goes on with. -/
private theorem le_foldl_extendRun (mark : Char) (cs : List Char) (longest run : Nat)
    (h : run ≤ longest) :
    max longest (run + (cs.takeWhile (· == mark)).length) ≤
      (cs.foldl (extendRun mark) (longest, run)).1 := by
  induction cs generalizing longest run with
  | nil => exact Nat.max_le.2 ⟨Nat.le_refl _, h⟩
  | cons c cs ih =>
    rw [List.foldl_cons, extendRun]
    by_cases hc : c = mark
    · have htail := ih (max longest (run + 1)) (run + 1) (Nat.le_max_right _ _)
      rw [List.takeWhile_cons_of_pos (by simpa using hc), List.length_cons]
      simp only [if_pos hc]
      omega
    · -- the run is over, and the next one starts from nothing
      have htail := ih (max longest 0) 0 (Nat.zero_le _)
      rw [List.takeWhile_cons_of_neg (by simpa using hc), List.length_nil]
      simp only [if_neg hc]
      omega

/-- A longer run at the start never makes the longest one shorter. -/
private theorem foldl_extendRun_mono (mark : Char) (cs : List Char)
    {longest longest' run run' : Nat} (hlongest : longest ≤ longest') (hrun : run ≤ run') :
    (cs.foldl (extendRun mark) (longest, run)).1 ≤
      (cs.foldl (extendRun mark) (longest', run')).1 := by
  induction cs generalizing longest longest' run run' with
  | nil => exact hlongest
  | cons c cs ih =>
    rw [List.foldl_cons, List.foldl_cons, extendRun, extendRun]
    refine ih ?_ ?_ <;> dsimp only <;> split_ifs <;> omega

/-- The marks at the front of a text are one of its runs. -/
theorem length_takeWhile_le_longestRun (mark : Char) (cs : List Char) :
    (cs.takeWhile (· == mark)).length ≤ longestRun mark cs := by
  have h := le_foldl_extendRun mark cs 0 0 (Nat.le_refl 0)
  rw [longestRun_eq]
  omega

/-- A character in front does not make the longest run shorter. -/
theorem longestRun_le_cons (mark c : Char) (cs : List Char) :
    longestRun mark cs ≤ longestRun mark (c :: cs) := by
  rw [longestRun_eq, longestRun_eq, List.foldl_cons, extendRun]
  exact foldl_extendRun_mono mark cs (Nat.zero_le _) (Nat.zero_le _)

/-- With escapes no more marks come in a row than are allowed. -/
theorem length_takeWhile_escapeAll (multiline : Bool) {allowed run : Nat} (h : run ≤ allowed)
    (cs : List Char) :
    run + ((escapeAll multiline allowed run cs).takeWhile (· == '\x22')).length ≤ allowed := by
  induction cs generalizing run with
  | nil => exact h
  | cons c cs ih =>
    rcases escapeAll_cons_cases multiline allowed run c cs with
      ⟨rfl, hrun, hwritten⟩ | ⟨letters, -, hwritten⟩ | ⟨hquote, -, -, hwritten⟩
    · have hnext : run + 1 ≤ allowed := hrun
      have htail := ih hnext
      rw [hwritten, List.takeWhile_cons_of_pos rfl, List.length_cons]
      omega
    · -- the backslash ends the run
      rw [hwritten]
      exact h
    · rw [hwritten, List.takeWhile_cons_of_neg (by simpa using hquote)]
      exact h

/-- Marks alone are written as they are, up to the number allowed. -/
theorem eq_of_all_escapeAll {multiline : Bool} {allowed run : Nat} {cs : List Char}
    (h : (escapeAll multiline allowed run cs).all (· == '\x22') = true) :
    escapeAll multiline allowed run cs = cs := by
  induction cs generalizing run with
  | nil => rfl
  | cons c cs ih =>
    rcases escapeAll_cons_cases multiline allowed run c cs with
      ⟨-, -, hwritten⟩ | ⟨letters, -, hwritten⟩ | ⟨hquote, -, -, hwritten⟩ <;>
      rw [hwritten] at h ⊢ <;> rw [List.all_cons, Bool.and_eq_true, beq_iff_eq] at h
    · rw [ih h.2]
    · -- an escape starts with a backslash, which is no mark
      exact absurd h.1 (by decide)
    · exact absurd h.1 hquote

/-- A string without escapes on one line is read up to the apostrophe that closes it. -/
theorem readLiteral_append {cs : List Char} (rest : List Char)
    (hcontrols : ∀ c ∈ cs, isControl c = false) (hline : '\n' ∉ cs)
    (hruns : longestRun '\'' cs = 0) :
    readLiteral (cs ++ '\'' :: rest) = some (cs, rest) := by
  induction cs with
  | nil => rfl
  | cons c cs ih =>
    obtain ⟨hcontrol, hcontrols⟩ := List.forall_mem_cons.1 hcontrols
    obtain ⟨hc, hline⟩ := not_or.1 (mt List.mem_cons.2 hline)
    have htail := ih hcontrols hline
      (Nat.le_zero.1 (hruns ▸ longestRun_le_cons '\'' c cs))
    -- an apostrophe in the text would be a run of one
    have hmark : c ≠ '\'' := by
      rintro rfl
      have hrun := length_takeWhile_le_longestRun '\'' ('\'' :: cs)
      rw [hruns, List.takeWhile_cons_of_pos rfl] at hrun
      cases hrun
    rw [List.cons_append, readLiteral, if_neg hmark,
      if_pos (isText_of_not_isControl hcontrol (Ne.symm hc)), htail]
    rfl

/-- Three marks close a text behind the marks at its end; before that there are too few. -/
theorem closingMarks?_append {mark : Char} {content rest : List Char}
    (hcontent : (content.takeWhile (· == mark)).length ≤ 2) (hrest : rest.head? ≠ some mark) :
    closingMarks? mark (content ++ (List.replicate 3 mark ++ rest)) =
      if content.all (· == mark) then some (content, rest) else none := by
  have hstop : (List.replicate 3 mark ++ rest).takeWhile (· == mark) = List.replicate 3 mark := by
    rw [List.takeWhile_append_of_pos (by simp)]
    cases rest with
    | nil => rfl
    | cons c rest =>
      have hc : ¬ (c == mark) = true := fun h => hrest (by rw [beq_iff_eq.1 h]; rfl)
      rw [List.takeWhile_cons_of_neg (p := (· == mark)) hc, List.append_nil]
  rw [closingMarks?]
  by_cases hall : content.all (· == mark) = true
  · -- the text is a run of marks, which goes on with the closing ones
    have hmem := List.all_eq_true.1 hall
    have hmarks : List.replicate content.length mark = content :=
      (List.eq_replicate_iff.2 ⟨rfl, fun c hc => beq_iff_eq.1 (hmem c hc)⟩).symm
    rw [List.takeWhile_eq_self_iff.2 hmem] at hcontent
    have hcount : min (content.length + 3 - 3) 2 = content.length := by omega
    rw [if_pos hall, List.takeWhile_append_of_pos hmem, hstop, List.length_append,
      List.length_replicate, if_neg (by omega)]
    simp only [hcount, hmarks]
    rw [← List.append_assoc, List.drop_left' (by simp)]
  · -- the run ends inside the text
    have hlt : (content.takeWhile (· == mark)).length ≠ content.length := by
      intro h
      have hself := (List.takeWhile_prefix (· == mark)).eq_of_length h
      exact hall (List.all_eq_true.2 (List.takeWhile_eq_self_iff.1 hself))
    rw [if_neg hall, List.takeWhile_append, if_neg hlt, if_pos (by omega)]

/-! ## Strings on several lines -/

section Steps

variable {mark : Char} {escapes : Bool} {fuel : Nat}

/-- An end of line in a text is kept. -/
private theorem readLines_newline {cs : List Char} (h : closingMarks? mark ('\n' :: cs) = none) :
    readLines mark escapes (fuel + 1) ('\n' :: cs) =
      (readLines mark escapes fuel cs).map fun read => ('\n' :: read.1, read.2) := by
  rw [readLines.eq_def]
  simp only [h, dropNewline?]
  cases readLines mark escapes fuel cs <;> rfl

/-- A character that stands for itself is kept. -/
private theorem readLines_text {c : Char} {cs : List Char}
    (h : closingMarks? mark (c :: cs) = none) (htext : isText c = true)
    (hescape : ¬ (escapes = true ∧ c = '\\')) :
    readLines mark escapes (fuel + 1) (c :: cs) =
      (readLines mark escapes fuel cs).map fun read => (c :: read.1, read.2) := by
  rw [readLines.eq_def]
  simp only [h, dropNewline?_of_isText htext, if_neg hescape, if_pos htext]
  cases readLines mark escapes fuel cs <;> rfl

/-- An escape is read as the character it stands for. -/
private theorem readLines_escape {c : Char} {cs rest : List Char}
    (h : closingMarks? mark ('\\' :: cs) = none) (hread : readEscape cs = some (c, rest)) :
    readLines mark true (fuel + 1) ('\\' :: cs) =
      (readLines mark true fuel rest).map fun read => (c :: read.1, read.2) := by
  have hslash : dropNewline? ('\\' :: cs) = none := dropNewline?_of_isText (by decide) cs
  rw [readLines.eq_def]
  simp only [h, hslash, and_self, if_true, dropNewline?_of_readEscape hread, hread,
    Option.bind_eq_bind, Option.bind_some]
  cases readLines mark true fuel rest <;> rfl

/-- A string ends where only marks are left in front of the closing ones. -/
private theorem readLines_closing {content rest : List Char}
    (h : closingMarks? mark (content ++ (List.replicate 3 mark ++ rest)) = some (content, rest)) :
    readLines mark escapes (fuel + 1) (content ++ (List.replicate 3 mark ++ rest)) =
      some (content, rest) := by
  rw [readLines.eq_def]
  simp only [h]

end Steps

/-- A string with escapes is read up to the quotation marks that close it. -/
theorem readLines_escapeAll {cs rest : List Char} (hrest : rest.head? ≠ some '\x22')
    {run fuel : Nat} (hrun : run ≤ 2) (hfuel : cs.length < fuel) :
    readLines '\x22' true fuel (escapeAll true 2 run cs ++ (List.replicate 3 '\x22' ++ rest)) =
      some (cs, rest) := by
  induction cs generalizing run fuel with
  | nil =>
    obtain ⟨fuel, rfl⟩ := Nat.exists_eq_succ_of_ne_zero (Nat.ne_of_gt hfuel)
    exact readLines_closing (closingMarks?_append (Nat.zero_le 2) hrest)
  | cons c cs ih =>
    obtain ⟨fuel, rfl⟩ := Nat.exists_eq_succ_of_ne_zero (Nat.ne_zero_of_lt hfuel)
    replace hfuel := Nat.lt_of_succ_lt_succ hfuel
    have hmarks := length_takeWhile_escapeAll true hrun (c :: cs)
    have hclose := closingMarks?_append (Nat.le_trans (Nat.le_add_left _ run) hmarks) hrest
    -- the string ends here if nothing but marks is left, and a character is read otherwise
    by_cases hall : (escapeAll true 2 run (c :: cs)).all (· == '\x22') = true
    · rw [if_pos hall] at hclose
      have hwritten := eq_of_all_escapeAll hall
      rw [hwritten] at hclose ⊢
      exact readLines_closing hclose
    rw [if_neg hall] at hclose
    rcases escapeAll_cons_cases true 2 run c cs with
      ⟨rfl, hlt, h⟩ | ⟨letters, hletters, h⟩ | ⟨-, hslash, htext, h⟩
    · rw [h, List.cons_append] at hclose ⊢
      rw [readLines_text hclose (by decide) (by decide), ih hlt hfuel]
      rfl
    · rw [h, List.cons_append, List.append_assoc] at hclose ⊢
      rw [readLines_escape hclose (hletters _), ih (Nat.zero_le 2) hfuel]
      rfl
    · rw [h, List.cons_append] at hclose ⊢
      rcases htext with htext | ⟨rfl, -⟩
      · rw [readLines_text hclose htext fun h => hslash h.2, ih (Nat.zero_le 2) hfuel]
        rfl
      · rw [readLines_newline hclose, ih (Nat.zero_le 2) hfuel]
        rfl

/-- A string without escapes is read up to the marks that close it. -/
theorem readLines_append {mark : Char} {cs rest : List Char}
    (hcontrols : ∀ c ∈ cs, isControl c = false) (hruns : longestRun mark cs ≤ 2)
    (hrest : rest.head? ≠ some mark) {fuel : Nat} (hfuel : cs.length < fuel) :
    readLines mark false fuel (cs ++ (List.replicate 3 mark ++ rest)) = some (cs, rest) := by
  induction cs generalizing fuel with
  | nil =>
    obtain ⟨fuel, rfl⟩ := Nat.exists_eq_succ_of_ne_zero (Nat.ne_of_gt hfuel)
    exact readLines_closing (closingMarks?_append (Nat.zero_le 2) hrest)
  | cons c cs ih =>
    obtain ⟨fuel, rfl⟩ := Nat.exists_eq_succ_of_ne_zero (Nat.ne_zero_of_lt hfuel)
    obtain ⟨hcontrol, hcontrols⟩ := List.forall_mem_cons.1 hcontrols
    have htail := ih hcontrols (Nat.le_trans (longestRun_le_cons mark c cs) hruns)
      (Nat.lt_of_succ_lt_succ hfuel)
    have hmarks := Nat.le_trans (length_takeWhile_le_longestRun mark (c :: cs)) hruns
    have hclose := closingMarks?_append hmarks hrest
    -- a text of nothing but marks goes into the closing ones, and is read with them
    by_cases hall : (c :: cs).all (· == mark) = true
    · rw [if_pos hall] at hclose
      exact readLines_closing hclose
    rw [if_neg hall, List.cons_append] at hclose
    rw [List.cons_append]
    by_cases hline : c = '\n'
    · subst hline
      rw [readLines_newline hclose, htail]
      rfl
    · rw [readLines_text hclose (isText_of_not_isControl hcontrol hline) (by simp), htail]
      rfl

/-- An end of line behind the opening marks is not part of a string, so one is written in front
    of a text that has lines. -/
private theorem readMultiline_enclosed {mark : Char} {escapes : Bool}
    {cs content rest : List Char} (hlength : cs.length ≤ content.length)
    (hstart : '\n' ∉ cs → dropNewline? (content ++ (List.replicate 3 mark ++ rest)) = none)
    (hread : ∀ fuel, cs.length < fuel →
      readLines mark escapes fuel (content ++ (List.replicate 3 mark ++ rest)) = some (cs, rest)) :
    readMultiline mark escapes ((if '\n' ∈ cs then ['\n'] else []) ++
      (content ++ (List.replicate 3 mark ++ rest))) = some (cs, rest) := by
  have hfuel : cs.length < (content ++ (List.replicate 3 mark ++ rest)).length + 1 := by
    rw [List.length_append]
    omega
  rw [readMultiline]
  by_cases hlines : '\n' ∈ cs
  · -- the end of line that was put there is taken off again
    rw [if_pos hlines, List.singleton_append]
    exact hread _ hfuel
  · rw [if_neg hlines, List.nil_append, hstart hlines]
    exact hread _ hfuel

/-! ## Any string -/

/-- Only three marks in a row open a string on several lines. -/
private theorem append_ne_marks {mark : Char} {content rest : List Char}
    (hcontent : content.head? ≠ some mark) (hrest : rest.head? ≠ some mark) (more : List Char) :
    content ++ mark :: rest ≠ mark :: mark :: more := by
  intro h
  cases content with
  -- an empty text has its closing mark behind the opening one, and a third would follow
  | nil =>
    rw [List.nil_append, List.cons.injEq] at h
    exact hrest (by rw [h.2]; rfl)
  | cons c content =>
    rw [List.cons_append, List.cons.injEq] at h
    exact hcontent (by rw [h.1]; rfl)

/-- A quotation mark that is not one of three opens a string on one line. -/
private theorem readString_basic {cs : List Char}
    (h : ∀ more, cs ≠ '\x22' :: '\x22' :: more) :
    readString ('\x22' :: cs) =
      (readBasic cs.length cs).map fun read => (String.ofList read.1, read.2) := by
  rw [readString.eq_def]
  split
  case h_1 more heq => exact absurd (List.cons.inj heq).2 (h more)
  case h_3 heq => rw [(List.cons.inj heq).2]
  all_goals simp_all

/-- An apostrophe that is not one of three opens a string on one line. -/
private theorem readString_literal {cs : List Char}
    (h : ∀ more, cs ≠ '\'' :: '\'' :: more) :
    readString ('\'' :: cs) =
      (readLiteral cs).map fun read => (String.ofList read.1, read.2) := by
  rw [readString.eq_def]
  split
  case h_2 more heq => exact absurd (List.cons.inj heq).2 (h more)
  case h_4 heq => rw [(List.cons.inj heq).2]
  all_goals simp_all

section Forms

variable {cs rest : List Char}

theorem toList_enclose_one (mark : Char) (cs content : List Char) :
    (enclose (List.replicate 1 mark) cs content).toList = mark :: (content ++ [mark]) := by
  simp [enclose]

theorem toList_enclose_three (mark : Char) (cs content : List Char) :
    (enclose (List.replicate 3 mark) cs content).toList =
      mark :: mark :: mark :: ((if '\n' ∈ cs then ['\n'] else []) ++
        (content ++ List.replicate 3 mark)) := by
  simp [enclose]

/-- The form with escapes on one line. -/
private theorem readString_escapeAll_line (hrest : rest.head? ≠ some '\x22') :
    readString ((enclose (quoteMarks 1) cs (escapeAll false 0 0 cs)).toList ++ rest) =
      some (String.ofList cs, rest) := by
  have hhead : (escapeAll false 0 0 cs).head? ≠ some '\x22' := by
    -- no mark stands in the text, so the first one is not taken for one of three
    intro h
    have hrun := length_takeWhile_escapeAll false (Nat.le_refl 0) cs
    obtain ⟨more, hmore⟩ := List.head?_eq_some_iff.1 h
    rw [hmore, List.takeWhile_cons_of_pos (by rfl), List.length_cons] at hrun
    omega
  have hlength := length_le_length_escapeAll false 0 0 cs
  rw [quoteMarks, toList_enclose_one, List.cons_append, List.append_assoc,
    List.singleton_append, readString_basic (append_ne_marks hhead hrest),
    readBasic_escapeAll cs rest (by rw [List.length_append, List.length_cons]; omega)]
  rfl

/-- The form without escapes on one line. -/
private theorem readString_line (hcontrols : ∀ c ∈ cs, isControl c = false) (hline : '\n' ∉ cs)
    (hruns : longestRun '\'' cs = 0) (hrest : rest.head? ≠ some '\'') :
    readString ((enclose (apostrophes 1) cs cs).toList ++ rest) =
      some (String.ofList cs, rest) := by
  -- the text does not start with an apostrophe, so the opening mark stands alone
  have hhead : cs.head? ≠ some '\'' := by
    intro h
    have hrun := length_takeWhile_le_longestRun '\'' cs
    obtain ⟨more, hmore⟩ := List.head?_eq_some_iff.1 h
    rw [hruns, hmore, List.takeWhile_cons_of_pos (by rfl)] at hrun
    cases hrun
  rw [apostrophes, toList_enclose_one, List.cons_append, List.append_assoc,
    List.singleton_append, readString_literal (append_ne_marks hhead hrest),
    readLiteral_append rest hcontrols hline hruns]
  rfl

/-- The form with escapes on several lines. -/
private theorem readString_escapeAll_lines (hrest : rest.head? ≠ some '\x22') :
    readString ((enclose (quoteMarks 3) cs (escapeAll true 2 0 cs)).toList ++ rest) =
      some (String.ofList cs, rest) := by
  rw [quoteMarks, toList_enclose_three]
  simp only [List.cons_append, List.append_assoc, readString]
  rw [readMultiline_enclosed (length_le_length_escapeAll true 2 0 cs) ?_
    fun fuel => readLines_escapeAll hrest (Nat.zero_le 2)]
  · rfl
  · -- no end of line may be taken off that was not put there
    intro hline
    cases cs with
    | nil => rfl
    | cons c cs =>
      rcases escapeAll_cons_cases true 2 0 c cs with
        ⟨rfl, -, h⟩ | ⟨letters, -, h⟩ | ⟨-, -, htext, h⟩ <;> rw [h]
      · rfl
      · rfl
      · rcases htext with htext | ⟨rfl, -⟩
        · exact dropNewline?_of_isText htext _
        · exact absurd List.mem_cons_self hline

/-- The form without escapes on several lines. -/
private theorem readString_lines (hcontrols : ∀ c ∈ cs, isControl c = false)
    (hruns : longestRun '\'' cs ≤ 2) (hrest : rest.head? ≠ some '\'') :
    readString ((enclose (apostrophes 3) cs cs).toList ++ rest) =
      some (String.ofList cs, rest) := by
  rw [apostrophes, toList_enclose_three]
  simp only [List.cons_append, List.append_assoc, readString]
  rw [readMultiline_enclosed (Nat.le_refl _) ?_
    fun fuel => readLines_append hcontrols hruns hrest]
  · rfl
  · -- no end of line may be taken off that was not put there
    intro hline
    cases cs with
    | nil => rfl
    | cons c cs =>
      have hc : c ≠ '\n' := by
        rintro rfl
        exact hline List.mem_cons_self
      exact dropNewline?_of_isText (isText_of_not_isControl (hcontrols c List.mem_cons_self) hc) _

end Forms

/-- Every string reads back from the form that it is written in. -/
theorem readString_quote (s : String) {rest : List Char} (hquote : rest.head? ≠ some '\x22')
    (hsingle : rest.head? ≠ some '\'') :
    readString ((quote s).toList ++ rest) = some (s, rest) := by
  have hchars : String.ofList s.toList = s := String.ofList_toList
  have hcontrols (h : ¬ s.toList.any isControl = true) (c : Char) (hc : c ∈ s.toList) :
      isControl c = false := Bool.eq_false_iff.2 fun hcontrol =>
    h (List.any_eq_true.2 ⟨c, hc, hcontrol⟩)
  have hline (h : ¬ s.toList.contains '\n' = true) : '\n' ∉ s.toList :=
    fun hmem => h (List.contains_iff_mem.2 hmem)
  rw [quote]
  -- the five conditions of the writer, from the plainest form on
  split_ifs with hplain hliteral hlines hraw hbroken
  · rw [readString_escapeAll_line hquote, hchars]
  · rw [readString_line (hcontrols hliteral.1) (hline hliteral.2.2) hliteral.2.1 hsingle, hchars]
  · rw [readString_escapeAll_lines hquote, hchars]
  · rw [readString_lines (hcontrols hraw.1) hraw.2 hsingle, hchars]
  · rw [readString_escapeAll_lines hquote, hchars]
  · rw [readString_escapeAll_line hquote, hchars]

/-- A string is written between marks. -/
theorem head?_quote (s : String) :
    (quote s).toList.head? = some '\x22' ∨ (quote s).toList.head? = some '\'' := by
  rw [quote]
  split_ifs
  · exact .inl (congrArg List.head? (toList_enclose_one ..))
  · exact .inr (congrArg List.head? (toList_enclose_one ..))
  · exact .inl (congrArg List.head? (toList_enclose_three ..))
  · exact .inr (congrArg List.head? (toList_enclose_three ..))
  · exact .inl (congrArg List.head? (toList_enclose_three ..))
  · exact .inl (congrArg List.head? (toList_enclose_one ..))

end Toml

end EntityStore
