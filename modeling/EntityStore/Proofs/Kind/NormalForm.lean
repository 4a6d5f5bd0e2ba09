import EntityStore.Proofs.Kind.Listing
import Mathlib.Data.List.DropRight

/-! # Kind lists are read line by line

The names in two texts with a line feed between them are those of the first and those of the
second, so what holds of a list follows from what holds of its lines.  A name has nothing left to
take off, which makes the list of the names, one on a line, a normal form: it has these names
again, whichever blanks stand in front of the line feeds.

* `KindListing.parse_append`       two lists with a line feed between them
* `KindListing.parse_intercalate`  names with blanks and a line feed between them
* `KindListing.parse_exact`        both, with what a name may be and when a list is refused -/

namespace EntityStore

namespace Text

/-- Whether a text has no blanks at its ends. -/
structure IsTrimmed (s : String) : Prop where
  head : ∀ c, s.toList.head? = some c → isBlank c = false
  last : ∀ c, s.toList.getLast? = some c → isBlank c = false

theorem trimChars_eq (cs : List Char) :
    trimChars cs = (cs.dropWhile isBlank).rdropWhile isBlank := rfl

/-- Trimming adds no characters. -/
theorem mem_of_mem_trim {c : Char} {s : String} (h : c ∈ (trim s).toList) : c ∈ s.toList := by
  rw [trim, String.toList_ofList, trimChars_eq] at h
  exact (List.dropWhile_suffix isBlank).subset ((List.rdropWhile_prefix isBlank _).subset h)

/-- A trimmed text has no blank at either end. -/
theorem isTrimmed_trim (s : String) : IsTrimmed (trim s) := by
  rw [trim]
  constructor <;> intro c hc <;> rw [String.toList_ofList, trimChars_eq] at hc
  case head =>
    -- what is taken off the end leaves the head where it is
    obtain ⟨rest, hrest⟩ := List.rdropWhile_prefix isBlank (s.toList.dropWhile isBlank)
    have hhead : (s.toList.dropWhile isBlank).head? = some c := by
      rw [← hrest, List.head?_append, hc, Option.some_or]
    have hnot := List.head?_dropWhile_not isBlank s.toList
    rw [hhead] at hnot
    exact hnot
  case last =>
    obtain ⟨hne, rfl⟩ := List.mem_getLast?_eq_getLast hc
    exact Bool.eq_false_iff.2 (List.rdropWhile_last_not isBlank _ hne)

/-- Blanks behind a text are taken off, and nothing else if the text has none at its ends. -/
theorem trim_append_blanks {s blanks : String} (hs : IsTrimmed s)
    (hblanks : ∀ c ∈ blanks.toList, isBlank c = true) : trim (s ++ blanks) = s := by
  rw [trim, String.toList_append, trimChars_eq, List.rdropWhile]
  suffices h : (((s.toList ++ blanks.toList).dropWhile isBlank).reverse.dropWhile isBlank).reverse =
      s.toList by
    rw [h, String.ofList_toList]
  rcases hchars : s.toList with _ | ⟨c, cs⟩
  · -- an empty text: the blanks are taken off from the front
    rw [List.nil_append, List.dropWhile_eq_nil_iff.2 hblanks]
    rfl
  · have hhead : isBlank c = false := hs.head c (by rw [hchars]; rfl)
    rw [List.cons_append, List.dropWhile_cons_of_neg (by simp [hhead]), ← List.cons_append,
      List.reverse_append, List.dropWhile_append_of_pos (by simpa using hblanks), ← hchars]
    -- from the end the blanks are taken off up to the last character of the text
    obtain ⟨d, ds, hrev⟩ := List.exists_cons_of_ne_nil
      (l := s.toList.reverse) (by rw [hchars]; simp)
    have hlast : isBlank d = false := by
      refine hs.last d ?_
      rw [← List.head?_reverse, hrev]
      rfl
    rw [hrev, List.dropWhile_cons_of_neg (by simp [hlast]), ← hrev, List.reverse_reverse]

end Text

namespace KindListing

/-- What a name in a list is like: a text on one line that is not empty, has no blanks at its
    ends, and does not look like a comment. -/
structure IsKindName (name : String) : Prop where
  nonempty : name ≠ ""
  oneLine : '\n' ∉ name.toList
  trimmed : Text.IsTrimmed name
  noComment : name.toList.head? ≠ some '#'

/-! ## Lines -/

/-- No line of a text has a line feed in it. -/
theorem not_mem_of_mem_splitOn {cs line : List Char} (h : line ∈ cs.splitOn '\n') :
    '\n' ∉ line := by
  induction cs generalizing line with
  | nil =>
    obtain rfl := List.mem_singleton.1 h
    exact List.not_mem_nil
  | cons c cs ih =>
    rw [List.splitOn_cons_eq_if_modifyHead] at h
    obtain ⟨first, lines, hlines⟩ := List.exists_cons_of_ne_nil (List.splitOn_ne_nil '\n' cs)
    rw [hlines] at h ih
    -- a line feed starts a line, any other character goes on with the first
    split at h
    · rcases List.mem_cons.1 h with rfl | h
      · exact List.not_mem_nil
      · exact ih h
    · next hc =>
      rcases List.mem_cons.1 h with rfl | h
      · rw [List.mem_cons, not_or]
        exact ⟨fun heq => hc (beq_iff_eq.2 heq.symm), ih List.mem_cons_self⟩
      · exact ih (List.mem_cons_of_mem first h)

/-- A line is a name if it is not empty and no comment. -/
theorem isName_iff {line : String} :
    isName line = true ↔ line ≠ "" ∧ line.toList.head? ≠ some '#' := by
  rw [isName, Ne, ← String.toList_eq_nil_iff]
  cases line.toList with
  | nil => simp
  | cons c cs => simp

/-- Names on some lines and names on further lines. -/
theorem namesOf_append (xs ys : List Bytes) :
    namesOf (xs ++ ys) = do return (← namesOf xs) ++ (← namesOf ys) := by
  induction xs with
  | nil => cases h : namesOf ys <;> simp [namesOf, h, bind, Except.bind, pure, Except.pure]
  | cons line xs ih =>
    rw [List.cons_append, namesOf, namesOf]
    -- the first line that is not well-formed decides, wherever it is
    cases Utf8.decode? line with
    | none => rfl
    | some text =>
      rw [ih]
      simp only [bind, Except.bind, pure, Except.pure]
      cases namesOf xs with
      | error e => rfl
      | ok names =>
        cases namesOf ys with
        | error e => rfl
        | ok names' => dsimp only; split <;> rfl

/-- Two lists with a line feed between them have the names of the one and of the other. -/
theorem parse_append (a b : Bytes) :
    parse (a ++ lineFeed :: b) = do return (← parse a) ++ (← parse b) := by
  rw [parse, List.splitOn_append_cons_self, namesOf_append]
  rfl

/-! ## Names -/

/-- Every name in a list has the shape of a kind name. -/
theorem isKindName_of_mem_names {text name : String} (h : name ∈ names text) :
    IsKindName name := by
  obtain ⟨hmem, hname⟩ := List.mem_filter.1 h
  obtain ⟨hne, hhead⟩ := isName_iff.1 hname
  obtain ⟨line, hline, rfl⟩ := List.mem_map.1 hmem
  refine ⟨hne, fun hfeed => not_mem_of_mem_splitOn hline ?_, Text.isTrimmed_trim _, hhead⟩
  simpa only [String.toList_ofList] using Text.mem_of_mem_trim hfeed

/-- A line with a name and blanks behind it. -/
theorem parse_line {name : String} (hname : IsKindName name) (blanks : String)
    (hblanks : ∀ c ∈ blanks.toList, Text.isBlank c = true ∧ c ≠ '\n') :
    parse (Utf8.encode (name ++ blanks)) = .ok [name] := by
  -- no line feed in the name or behind it, so it is one line
  have hfeed : '\n' ∉ (name ++ blanks).toList := by
    rw [String.toList_append, List.mem_append, not_or]
    exact ⟨hname.oneLine, fun h => (hblanks _ h).2 rfl⟩
  have htrim := Text.trim_append_blanks hname.trimmed fun c hc => (hblanks c hc).1
  have hisName : isName name = true := isName_iff.2 ⟨hname.nonempty, hname.noComment⟩
  rw [parse_eq, Utf8.decode?_encode]
  refine congrArg Except.ok ?_
  rw [names, List.splitOn_eq_singleton hfeed, List.map_singleton, String.ofList_toList, htrim,
    List.filter_cons_of_pos hisName, List.filter_nil]

/-- Names with blanks and a line feed between them make a list of just these names. -/
theorem parse_intercalate (blanks : String)
    (hblanks : ∀ c ∈ blanks.toList, Text.isBlank c = true ∧ c ≠ '\n') {names : List String}
    (hnames : ∀ name ∈ names, IsKindName name) :
    parse (Utf8.encode ((blanks ++ "\n").intercalate names)) = .ok names := by
  induction names with
  | nil => rfl
  | cons name names ih =>
    obtain ⟨hname, hnames⟩ := List.forall_mem_cons.1 hnames
    cases names with
    | nil =>
      have hline := parse_line hname "" nofun
      rwa [String.append_empty] at hline
    | cons name' names =>
      -- the line feed behind a name ends its line, so the list is cut there
      have hbytes (rest : String) : Utf8.encode (name ++ (blanks ++ "\n") ++ rest) =
          Utf8.encode (name ++ blanks) ++ lineFeed :: Utf8.encode rest := by
        simp only [Utf8.encode_append, List.append_assoc]
        rfl
      rw [String.intercalate_cons_cons, hbytes, parse_append, parse_line hname blanks hblanks,
        ih hnames]
      rfl

/-! ## Lists -/

/-- A list is refused only if it is not well-formed. -/
theorem parse_error_iff {a : Bytes} : (∃ e, parse a = .error e) ↔ ∀ t, Utf8.encode t ≠ a := by
  rw [parse_eq]
  cases hdecode : Utf8.decode? a with
  -- the encoding of a text could be decoded
  | none =>
    refine iff_of_true ⟨_, rfl⟩ fun t ht => ?_
    rw [← ht, Utf8.decode?_encode] at hdecode
    cases hdecode
  | some t =>
    refine iff_of_false (fun ⟨e, he⟩ => ?_) fun h => h t (Utf8.encode_decode? hdecode)
    cases he

/-- There is one error that a list can be refused with. -/
theorem eq_of_parse_error {a : Bytes} {e : Error} (h : parse a = .error e) :
    e = .io .invalidUtf8 := by
  rw [parse_eq] at h
  cases hdecode : Utf8.decode? a with
  | none =>
    rw [hdecode] at h
    exact (Except.error.inj h).symm
  | some t =>
    rw [hdecode] at h
    cases h

/-- Every name that is read has the shape of a kind name. -/
theorem isKindName_of_parse {a : Bytes} {names : List String} (h : parse a = .ok names) :
    ∀ name ∈ names, IsKindName name := by
  rw [parse_eq] at h
  cases hdecode : Utf8.decode? a with
  | none =>
    rw [hdecode] at h
    cases h
  | some t =>
    rw [hdecode] at h
    obtain rfl := Except.ok.inj h
    exact fun name => isKindName_of_mem_names

/-- A list is refused if it is no text.  A line feed divides a list in two, and the names in it,
    one on a line, are a list of these names. -/
theorem parse_exact (a : Bytes) :
    ((∃ e, parse a = .error e) ↔ ∀ t, Utf8.encode t ≠ a) ∧
    (∀ e, parse a = .error e → ∃ cause, e = .io cause) ∧
    (∀ b, (∀ xs ys, parse a = .ok xs → parse b = .ok ys →
          parse (a ++ lineFeed :: b) = .ok (xs ++ ys)) ∧
        ((∃ e, parse a = .error e) ∨ (∃ e, parse b = .error e) →
          ∃ e, parse (a ++ lineFeed :: b) = .error e)) ∧
    ∀ names, parse a = .ok names →
      (∀ name ∈ names, IsKindName name) ∧
      parse (Utf8.encode ("\n".intercalate names)) = .ok names ∧
      parse (Utf8.encode ("\r\n".intercalate names)) = .ok names := by
  refine ⟨parse_error_iff, fun e h => ⟨_, eq_of_parse_error h⟩, fun b => ⟨?_, ?_⟩, ?_⟩
  · intro xs ys hxs hys
    rw [parse_append, hxs, hys]
    rfl
  · intro h
    rw [parse_append]
    rcases h with ⟨e, he⟩ | ⟨e, he⟩
    · rw [he]
      exact ⟨e, rfl⟩
    · rw [he]
      cases parse a with
      | error e' => exact ⟨e', rfl⟩
      | ok xs => exact ⟨e, rfl⟩
  · intro names h
    have hnames := isKindName_of_parse h
    -- a carriage return is a blank that does not end a line
    have hreturn : ∀ c ∈ "\r".toList, Text.isBlank c = true ∧ c ≠ '\n' := by
      intro c hc
      obtain rfl := List.mem_singleton.1 hc
      exact ⟨rfl, by decide⟩
    exact ⟨hnames, parse_intercalate "" nofun hnames, parse_intercalate "\r" hreturn hnames⟩

/-- A comment behind a blank, a name with a carriage return in it, and one between blanks beyond
    ASCII. -/
def spaced : Bytes := Utf8.encode "\u00a0# none\r\n\ta\rb \r\n\u2003é\u0085"

/-- Two names are found, also below one another with CR LF between them; behind a line with half
    of a character they are not. -/
theorem parse_exact_spaced :
    parse (Utf8.encode ("\r\n".intercalate ["a\rb", "é"])) = .ok ["a\rb", "é"] ∧
      parse (spaced ++ lineFeed :: spaced) = .ok ["a\rb", "é", "a\rb", "é"] ∧
      ∃ e, parse ([0xC3] ++ lineFeed :: spaced) = .error e := by
  have hspaced : parse spaced = .ok ["a\rb", "é"] := by with_unfolding_all rfl
  have hhalf : parse [0xC3] = .error (.io .invalidUtf8) := by with_unfolding_all rfl
  obtain ⟨-, -, happend, hnames⟩ := parse_exact spaced
  obtain ⟨-, -, hhalves, -⟩ := parse_exact [0xC3]
  exact ⟨(hnames _ hspaced).2.2, (happend spaced).1 _ _ hspaced hspaced,
    (hhalves spaced).2 (.inl ⟨_, hhalf⟩)⟩

end KindListing

end EntityStore
