import EntityStore.Kind.Listing
import EntityStore.Proofs.Text.ByteOrder

/-! # The names in a kind list

A kind list is cut into lines as bytes, and every line is decoded on its own.  That is no other
than to decode the text first and to cut it into lines then: no character but the line feed has a
byte of the line feed in it, so a text is well-formed if all its lines are.

* `KindListing.names`          the names in a text
* `KindListing.splitOn_encode` the lines of the bytes are the bytes of the lines
* `KindListing.parse_eq`       a list is read in the one way or in the other -/

namespace EntityStore

namespace Utf8

/-- A byte below 128 stands for the code point with its number, and for no part of another. -/
theorem toNat_of_mem_utf8EncodeChar {c : Char} {b : UInt8} (hb : b ∈ String.utf8EncodeChar c)
    (h : b.toNat < 0x80) : c.val.toNat = b.toNat := by
  have hc := toNat_lt c
  rw [utf8EncodeChar_eq] at hb
  dsimp only at hb
  generalize c.val.toNat = v at hb hc ⊢
  -- the bytes of a longer form are all from 128 on
  split_ifs at hb <;>
    simp only [List.mem_cons, List.not_mem_nil, or_false, ← UInt8.toNat_inj,
      UInt8.toNat_ofNat'] at hb <;>
    omega

theorem encode_ofList_cons (c : Char) (cs : List Char) :
    encode (String.ofList (c :: cs)) = String.utf8EncodeChar c ++ encode (String.ofList cs) := by
  simp only [encode_ofList, List.flatMap_cons]

/-- Texts are encoded one behind the other. -/
theorem encode_append (s t : String) : encode (s ++ t) = encode s ++ encode t := by
  rw [← String.ofList_toList (s := s), ← String.ofList_toList (s := t), ← String.ofList_append]
  simp only [encode_ofList, List.flatMap_append]

end Utf8

namespace KindListing

/-- The names in a text: what is left of the lines without the blanks around them, but for empty
    lines and for lines that start with `#`. -/
def names (text : String) : List String :=
  ((text.toList.splitOn '\n').map fun line => Text.trim (String.ofList line)).filter isName

/-! ## Lines -/

/-- A run of bytes without a line feed belongs to the first line of what follows. -/
theorem splitOn_append {pre : Bytes} (hpre : ∀ b ∈ pre, b ≠ lineFeed) (rest : Bytes) :
    (pre ++ rest).splitOn lineFeed = (rest.splitOn lineFeed).modifyHead (pre ++ ·) := by
  induction pre with
  | nil => exact (congrFun List.modifyHead_id (rest.splitOn lineFeed)).symm
  | cons b pre ih =>
    obtain ⟨hb, hpre⟩ := List.forall_mem_cons.1 hpre
    rw [List.cons_append, List.splitOn_cons_eq_if_modifyHead, beq_false_of_ne hb, ih hpre,
      List.modifyHead_modifyHead]
    rfl

/-- The lines of the bytes of a text are the bytes of its lines. -/
theorem splitOn_encode (cs : List Char) :
    (Utf8.encode (String.ofList cs)).splitOn lineFeed =
      (cs.splitOn '\n').map fun line => Utf8.encode (String.ofList line) := by
  -- a character ends a line with all its bytes, or goes on with it with all of them
  induction cs with
  | nil => rfl
  | cons c cs ih =>
    rw [Utf8.encode_ofList_cons, List.splitOn_cons_eq_if_modifyHead]
    by_cases hc : c = '\n'
    · subst hc
      have hbyte : String.utf8EncodeChar '\n' = [lineFeed] := rfl
      rw [hbyte, List.singleton_append, List.splitOn_cons_eq_if_modifyHead, ih]
      simp [Utf8.encode_ofList]
    · -- a line feed is a byte of no other character
      have hbytes : ∀ b ∈ String.utf8EncodeChar c, b ≠ lineFeed := by
        rintro b hb rfl
        exact hc (Char.ext (UInt32.toNat_inj.1 (Utf8.toNat_of_mem_utf8EncodeChar hb (by decide))))
      obtain ⟨line, lines, hlines⟩ := List.exists_cons_of_ne_nil (List.splitOn_ne_nil '\n' cs)
      rw [splitOn_append hbytes, ih, hlines, beq_false_of_ne hc]
      simp only [List.map_cons, List.modifyHead_cons, Bool.false_eq_true, if_false,
        Utf8.encode_ofList_cons]

/-- Lines that are well-formed make up a well-formed text. -/
theorem exists_encode_intercalate {lines : List Bytes}
    (h : ∀ line ∈ lines, ∃ t, Utf8.encode t = line) :
    ∃ t, Utf8.encode t = [lineFeed].intercalate lines := by
  induction lines with
  | nil => exact ⟨"", rfl⟩
  | cons line lines ih =>
    obtain ⟨⟨t, rfl⟩, hlines⟩ := List.forall_mem_cons.1 h
    obtain ⟨rest, hrest⟩ := ih hlines
    cases lines with
    | nil => exact ⟨t, by simp⟩
    | cons line' lines =>
      -- a line feed between two texts is a character of its own
      refine ⟨t ++ "\n" ++ rest, ?_⟩
      rw [Utf8.encode_append, Utf8.encode_append, hrest, List.intercalate_cons_cons]
      rfl

/-! ## Names -/

/-- From lines that are well-formed the names are taken one by one. -/
theorem namesOf_map_encode (ts : List String) :
    namesOf (ts.map Utf8.encode) = .ok ((ts.map Text.trim).filter isName) := by
  induction ts with
  | nil => rfl
  | cons t ts ih =>
    simp only [List.map_cons, namesOf, Utf8.decode?_encode, ih, List.filter_cons]
    rfl

/-- A line that is not well-formed spoils the list. -/
theorem namesOf_of_not_decodable {lines : List Bytes} {line : Bytes} (hmem : line ∈ lines)
    (hline : Utf8.decode? line = none) : namesOf lines = .error (.io .invalidUtf8) := by
  induction lines with
  | nil => cases hmem
  | cons first lines ih =>
    rw [namesOf]
    cases hfirst : Utf8.decode? first with
    | none => rfl
    | some text =>
      rcases List.mem_cons.1 hmem with rfl | hmem
      · cases hline.symm.trans hfirst
      · -- the line is one of the later ones
        simp only [ih hmem, bind, Except.bind]

/-- A list is refused if its text is not well-formed, and else it has the names in the text. -/
theorem parse_eq (bytes : Bytes) :
    parse bytes = match Utf8.decode? bytes with
      | none => .error (.io .invalidUtf8)
      | some t => .ok (names t) := by
  rw [parse]
  cases hdecode : Utf8.decode? bytes with
  | some t =>
    obtain rfl := Utf8.encode_decode? hdecode
    have hlines := splitOn_encode t.toList
    rw [String.ofList_toList] at hlines
    -- the lines of the bytes are the lines of the text
    have hnames := namesOf_map_encode ((t.toList.splitOn '\n').map String.ofList)
    rw [List.map_map] at hnames
    rw [hlines]
    refine hnames.trans (congrArg Except.ok ?_)
    rw [names, List.map_map]
    rfl
  | none =>
    -- one of the lines is not well-formed
    by_cases hlines : ∀ line ∈ bytes.splitOn lineFeed, ∃ t, Utf8.encode t = line
    · obtain ⟨t, ht⟩ := exists_encode_intercalate hlines
      rw [List.intercalate_splitOn] at ht
      rw [← ht, Utf8.decode?_encode] at hdecode
      cases hdecode
    · obtain ⟨line, h⟩ := Classical.not_forall.1 hlines
      obtain ⟨hmem, hline⟩ := Classical.not_imp.1 h
      refine namesOf_of_not_decodable hmem ?_
      cases hdecode : Utf8.decode? line with
      | none => rfl
      | some t => exact absurd ⟨t, Utf8.encode_decode? hdecode⟩ hline

example : parse (Utf8.encode "\n#x\n a \n\t# y\nb\n\n") = .ok ["a", "b"] := by
  with_unfolding_all rfl

end KindListing

end EntityStore
