import EntityStore.Files.Tree
import Mathlib.Tactic.SplitIfs

/-! # What is written is found again

Writing changes one place of a tree.  It puts a file there and leaves every directory where it
is, so the way that led to the place still leads there, and the same path finds the file.

* `FileTree.lookup_put`            the place that was written
* `FileTree.lookup_directory_put`  directories stay directories
* `FileTree.find_write`            the path that was written to finds the file -/

namespace EntityStore

namespace Path

/-- A path that does not only name a directory has no separators at its end. -/
theorem trimmedSegments_of_not_namesDirectory {path : String}
    (h : namesDirectory path = false) : trimmedSegments path = segments path := by
  rw [namesDirectory] at h
  cases hlast : (segments path).getLast? with
  | none =>
    rw [hlast] at h
    cases h
  | some segment =>
    rw [hlast, Bool.or_eq_false_iff, stays, Bool.or_eq_false_iff] at h
    -- the last segment is a name, so nothing is dropped from the end
    obtain ⟨before, hbefore⟩ := List.getLast?_eq_some_iff.1 hlast
    rw [trimmedSegments, hbefore, List.reverse_concat,
      List.dropWhile_cons_of_neg (p := (· == "")) (Bool.eq_false_iff.1 h.1.1),
      List.reverse_cons, List.reverse_reverse]

end Path

namespace FileTree

variable {tree tree' : FileTree} {names place : List String} {content : Bytes}

/-! ## Entries of a directory -/

/-- An entry that was set is found. -/
theorem lookup_setEntry_self (name : String) (tree : FileTree)
    (entries : List (String × FileTree)) :
    (setEntry name tree entries).lookup name = some tree := by
  induction entries with
  | nil => exact List.lookup_cons_self
  | cons entry entries ih =>
    obtain ⟨k, t⟩ := entry
    rw [setEntry]
    split_ifs with hk
    · exact List.lookup_cons_self
    · rw [List.lookup_cons, beq_eq_false_iff_ne.2 (Ne.symm hk)]
      exact ih

/-- Setting one entry leaves the others. -/
theorem lookup_setEntry_of_ne {name other : String} (h : other ≠ name) (tree : FileTree)
    (entries : List (String × FileTree)) :
    (setEntry name tree entries).lookup other = entries.lookup other := by
  induction entries with
  | nil =>
    rw [setEntry, List.lookup_cons, beq_eq_false_iff_ne.2 h]
  | cons entry entries ih =>
    obtain ⟨k, t⟩ := entry
    rw [setEntry]
    split_ifs with hk
    · -- the entry that is replaced is not the one that is looked up
      subst hk
      rw [List.lookup_cons, List.lookup_cons, beq_eq_false_iff_ne.2 h]
    · rw [List.lookup_cons, List.lookup_cons, ih]

/-! ## Places -/

/-- What an update does at the first of its names. -/
theorem update_cons {change : Option FileTree → Except IoError FileTree} {name : String}
    (h : tree.update change (name :: names) = .ok tree') :
    ∃ entries sub, tree = .directory entries ∧ tree' = .directory (setEntry name sub entries) ∧
      ¬ Path.maxNameLength < (Utf8.encode name).length ∧
      ((∃ t, entries.lookup name = some t ∧ t.update change names = .ok sub) ∨
        entries.lookup name = none ∧ names = [] ∧ change none = .ok sub) := by
  cases tree with
  | file content => cases h
  | directory entries =>
    rw [update.eq_def] at h
    simp only [child] at h
    -- a name that is too long is refused
    split_ifs at h with hlength
    cases hentry : entries.lookup name with
    | some t =>
      rw [hentry] at h
      dsimp only at h
      cases hsub : t.update change names with
      | error e =>
        rw [hsub] at h
        cases h
      | ok sub =>
        rw [hsub] at h
        exact ⟨entries, sub, rfl, (Except.ok.inj h).symm, hlength, .inl ⟨t, hentry, hsub⟩⟩
    | none =>
      rw [hentry] at h
      cases names with
      -- a missing entry can only be made as the last of the names
      | cons other names => cases h
      | nil =>
        dsimp only at h
        cases hsub : change none with
        | error e =>
          rw [hsub] at h
          cases h
        | ok sub =>
          rw [hsub] at h
          exact ⟨entries, sub, rfl, (Except.ok.inj h).symm, hlength, .inr ⟨hentry, rfl, rfl⟩⟩

/-- A name is looked up in a directory, and the names behind it below what is found. -/
theorem lookup_directory_cons {name : String} {entries : List (String × FileTree)}
    (hlength : ¬ Path.maxNameLength < (Utf8.encode name).length) :
    (FileTree.directory entries).lookup (name :: names) =
      match entries.lookup name with
      | none => .error .notFound
      | some t => t.lookup names := by
  rw [lookup, child, if_neg hlength]
  cases entries.lookup name <;> rfl

/-- At the place of an update stands what was made of it. -/
theorem lookup_update {change : Option FileTree → Except IoError FileTree}
    (h : tree.update change names = .ok tree') :
    ∃ before after, change before = .ok after ∧ tree'.lookup names = .ok after := by
  induction names generalizing tree tree' with
  | nil =>
    rw [update] at h
    exact ⟨_, _, h, rfl⟩
  | cons name names ih =>
    obtain ⟨entries, sub, rfl, rfl, hlength, hsub⟩ := update_cons h
    rw [lookup_directory_cons hlength, lookup_setEntry_self]
    -- the name stood in the directory, or was made there as the last of the names
    rcases hsub with ⟨t, -, hsub⟩ | ⟨-, rfl, hsub⟩
    · exact ih hsub
    · exact ⟨_, _, hsub, rfl⟩

/-- At the place that was written stands the file. -/
theorem lookup_put (h : tree.put content names = .ok tree') :
    tree'.lookup names = .ok (.file content) := by
  obtain ⟨before, after, hchange, hafter⟩ := lookup_update h
  rw [hafter]
  split at hchange
  · cases hchange
  · exact congrArg Except.ok (Except.ok.inj hchange).symm

/-- Directories are never replaced. -/
theorem lookup_directory_put (h : tree.put content names = .ok tree')
    (hplace : ∃ entries, tree.lookup place = .ok (.directory entries)) :
    ∃ entries, tree'.lookup place = .ok (.directory entries) := by
  induction names generalizing tree tree' place with
  | nil =>
    -- a file takes the place of a file, below which there is nothing
    rw [put, update] at h
    obtain ⟨entries, hplace⟩ := hplace
    cases tree with
    | directory entries => cases h
    | file old =>
      cases place with
      | nil => cases hplace
      | cons other place =>
        rw [lookup, child] at hplace
        cases hplace
  | cons name names ih =>
    obtain ⟨entries, sub, rfl, rfl, hlength, hsub⟩ := update_cons h
    cases place with
    | nil => exact ⟨_, rfl⟩
    | cons other place =>
      obtain ⟨found, hplace⟩ := hplace
      by_cases hother : Path.maxNameLength < (Utf8.encode other).length
      · rw [lookup, child, if_pos hother] at hplace
        cases hplace
      · rw [lookup_directory_cons hother] at hplace ⊢
        -- the place is below the entry that changes or below one beside it
        by_cases hname : other = name
        · subst hname
          rw [lookup_setEntry_self]
          rcases hsub with ⟨t, hentry, hsub⟩ | ⟨hentry, -, -⟩
          · rw [hentry] at hplace
            exact ih hsub ⟨found, hplace⟩
          · rw [hentry] at hplace
            cases hplace
        · rw [lookup_setEntry_of_ne hname]
          exact ⟨found, hplace⟩

/-! ## Paths -/

/-- A segment is followed from a place that is a directory. -/
theorem follow_cons {segment : String} {segments place' : List String}
    (h : tree.follow place (segment :: segments) = .ok place') :
    (∃ entries, tree.lookup place.reverse = .ok (.directory entries)) ∧
      tree.follow (Path.step place segment) segments = .ok place' := by
  rw [follow] at h
  split at h
  · cases h
  · cases h
  · next entries hlookup => exact ⟨⟨entries, hlookup⟩, h⟩

/-- A way through directories leads to the same place after a file has been written. -/
theorem follow_put {segments place' : List String} (h : tree.put content names = .ok tree')
    (hfollow : tree.follow place segments = .ok place') :
    tree'.follow place segments = .ok place' := by
  induction segments generalizing place with
  | nil => exact hfollow
  | cons segment segments ih =>
    obtain ⟨hdirectory, hrest⟩ := follow_cons hfollow
    obtain ⟨entries, hentries⟩ := lookup_directory_put h hdirectory
    rw [follow, hentries]
    exact ih hrest

/-- What is found at a path is at the place that its segments lead to. -/
theorem find_ok_iff {path : String} {found : FileTree} :
    tree.find path = .ok found ↔
      Path.check path = .ok () ∧ ∃ place, tree.follow [] (Path.segments path) = .ok place ∧
        tree.lookup place.reverse = .ok found := by
  rw [find]
  simp only [bind, Except.bind]
  cases Path.check path with
  | error e => simp
  | ok u =>
    cases tree.follow [] (Path.segments path) with
    | error e => simp
    | ok place => simp

/-- A write that succeeds puts the content at the place that its segments lead to. -/
theorem write_ok_iff {path : String} :
    tree.write path content = .ok tree' ↔
      Path.check path = .ok () ∧ Path.namesDirectory path = false ∧
        ∃ place, tree.follow [] (Path.segments path) = .ok place ∧
          tree.put content place.reverse = .ok tree' := by
  rw [write]
  simp only [bind, Except.bind]
  cases Path.check path with
  | error e => simp
  | ok u =>
    cases hname : Path.namesDirectory path with
    | true =>
      cases tree.follow [] (Path.trimmedSegments path) <;>
        simp [throw, throwThe, MonadExceptOf.throw]
    | false =>
      -- so the separators at the end, which are left out here, are none
      rw [Path.trimmedSegments_of_not_namesDirectory hname]
      cases tree.follow [] (Path.segments path) <;> simp

/-- A path that has been written to finds the file. -/
theorem find_write {path : String} (h : tree.write path content = .ok tree') :
    tree'.find path = .ok (.file content) := by
  obtain ⟨hcheck, -, place, hfollow, hput⟩ := write_ok_iff.1 h
  exact find_ok_iff.2 ⟨hcheck, place, follow_put hput hfollow, lookup_put hput⟩

/-- The text at a path is that of the file there. -/
theorem readText_ok_iff {path text : String} :
    tree.readText path = .ok text ↔ tree.find path = .ok (.file (Utf8.encode text)) := by
  rw [readText]
  simp only [bind, Except.bind]
  cases tree.find path with
  | error e => simp
  | ok found =>
    cases found with
    | directory entries => simp [FileTree.content]
    | file bytes =>
      simp only [FileTree.content]
      -- bytes that are the encoding of a text are the encoding of one text only
      cases hdecode : Utf8.decode? bytes with
      | none =>
        refine iff_of_false (fun h => by cases h) fun h => ?_
        rw [(FileTree.file.inj (Except.ok.inj h)), Utf8.decode?_encode] at hdecode
        cases hdecode
      | some t =>
        obtain rfl := Utf8.encode_decode? hdecode
        constructor
        · intro h
          rw [Except.ok.inj h]
        · intro h
          rw [Utf8.encode_injective (FileTree.file.inj (Except.ok.inj h))]
          rfl

end FileTree

end EntityStore
