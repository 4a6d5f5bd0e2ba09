import EntityStore.Config
import EntityStore.Proofs.Files.Written
import EntityStore.Proofs.Toml.Entries

/-! # Configurations and their files

A configuration is written as a document of entries, which reads back, so a file that it was
written to describes it again.  Loading then checks the sizes and takes a relative path from the
directory of the file.  Neither does anything to a configuration that has been loaded: it may be
written to any other file and stays what it is.

* `Config.ofText?_render`    a configuration from its text
* `Config.ofFile_writeFile`  what is loaded from a file that was written
* `Config.settled_of_ofFile` what a loaded configuration is like
* `Config.files_exact`       both, for a file at an absolute path -/

namespace EntityStore

/-! ## Directories of files -/

namespace Path

variable {path directory : String}

/-- A path has at least one segment, which is empty if the path is. -/
theorem segments_ne_nil (path : String) : segments path ≠ [] := by
  rw [segments, Ne, List.map_eq_nil_iff]
  exact List.splitOn_ne_nil separator path.toList

/-- The first segment of an absolute path is empty. -/
theorem segments_of_isAbsolute (h : isAbsolute path = true) :
    ∃ rest, segments path = "" :: rest := by
  obtain ⟨rest, hrest⟩ := List.head?_eq_some_iff.1 (beq_iff_eq.1 h)
  have hsplit : (separator :: rest).splitOn separator = [] :: rest.splitOn separator :=
    List.splitOn_append_cons_self [] rest
  exact ⟨(rest.splitOn separator).map String.ofList, by rw [segments, hrest, hsplit]; rfl⟩

/-- The directory of an absolute path is absolute. -/
theorem isAbsolute_of_parent? (habsolute : isAbsolute path = true)
    (h : parent? path = some directory) : isAbsolute directory = true := by
  rw [parent?] at h
  split at h
  · next segments hsegments =>
    -- an absolute path has nothing in front of its first separator
    obtain ⟨rest, hrest⟩ := segments_of_isAbsolute habsolute
    have hfirst : "" = "." := (List.cons.inj (hrest.symm.trans hsegments)).1
    exact absurd hfirst (by decide)
  · split at h
    · cases h
    · dsimp only at h
      split_ifs at h with hrelative
      · obtain rfl := Option.some.inj h
        rw [isAbsolute, String.toList_append]
        rfl
      · obtain rfl := Option.some.inj h
        by_contra habs
        exact hrelative ⟨habsolute, habs⟩

/-- A path taken from an absolute directory is absolute. -/
theorem isAbsolute_join (h : isAbsolute directory = true) (path : String) :
    isAbsolute (join directory path) = true := by
  have hhead : directory.toList.head? = some separator := beq_iff_eq.1 h
  have hne : directory ≠ "" := by
    rintro rfl
    cases hhead
  rw [join]
  -- the path itself, or the directory in front of it with a separator or without
  split_ifs with hpath hlast
  · exact hpath.resolve_right hne
  · rw [isAbsolute, String.toList_append, List.head?_append, hhead]
    rfl
  · rw [isAbsolute, String.toList_append, String.toList_append, List.append_assoc,
      List.head?_append, hhead]
    rfl

end Path

namespace FileTree

variable {tree : FileTree} {path text : String}

/-- Segments that stay where they are lead nowhere. -/
theorem follow_of_stays {place place' segments : List String}
    (hstays : ∀ segment ∈ segments, Path.stays segment = true)
    (h : tree.follow place segments = .ok place') : place' = place := by
  induction segments generalizing place with
  | nil => exact (Except.ok.inj h).symm
  | cons segment segments ih =>
    obtain ⟨hsegment, hsegments⟩ := List.forall_mem_cons.1 hstays
    obtain ⟨-, hrest⟩ := follow_cons h
    rw [ih hsegments hrest, Path.step, if_pos hsegment]

/-- A file that can be read is in a directory. -/
theorem exists_parent?_of_readText (h : tree.readText path = .ok text) :
    ∃ directory, Path.parent? path = some directory := by
  obtain ⟨-, place, hfollow, hfile⟩ := find_ok_iff.1 (readText_ok_iff.1 h)
  rw [Path.parent?]
  split
  · split <;> exact ⟨_, rfl⟩
  cases hsegments : (Path.segments path).reverse.dropWhile Path.stays with
  | cons segment directories => exact ⟨_, rfl⟩
  | nil =>
    -- such a path leads to the root, and it leads there only from a directory
    exfalso
    have hstays : ∀ segment ∈ Path.segments path, Path.stays segment = true := by
      simpa using List.dropWhile_eq_nil_iff.1 hsegments
    obtain ⟨first, rest, hfirst⟩ := List.exists_cons_of_ne_nil (Path.segments_ne_nil path)
    obtain rfl := follow_of_stays hstays hfollow
    rw [hfirst] at hfollow
    obtain ⟨⟨entries, hroot⟩, -⟩ := follow_cons hfollow
    cases hroot.symm.trans hfile

end FileTree

namespace Config

variable {c : Config} {files files' : FileTree} {path text : String}

/-! ## Text -/

/-- The entries that a configuration is written as. -/
def entries (c : Config) : List Toml.Entry :=
  (match c.entities with
    | some path => [⟨"entities", .string path, (Toml.quote path).toList⟩]
    | none => []) ++
  [⟨"default_page_size", .integer c.defaultPageSize.toNat,
      Nat.toDigits 10 c.defaultPageSize.toNat⟩,
    ⟨"max_page_size", .integer c.maxPageSize.toNat, Nat.toDigits 10 c.maxPageSize.toNat⟩]

/-- The text of a configuration is that of its entries, line by line. -/
theorem render_eq (c : Config) :
    c.render = String.ofList (c.entries.flatMap Toml.Entry.line) := by
  have hstring (s : String) : toString s = s := rfl
  rw [← String.ofList_toList (s := c.render), render, entries]
  congr 1
  cases c.entities with
  | none => simp [Toml.Entry.line, hstring]
  | some path => simp [Toml.Entry.line, hstring]

/-- A size is among the integers of the language. -/
private theorem toNat_lt_of_size (n : UInt32) : n.toNat < 0x8000000000000000 :=
  Nat.lt_trans n.toNat_lt (by decide)

/-- Keys are bare, and sizes have a place among the integers. -/
theorem readable_of_mem_entries {e : Toml.Entry} (h : e ∈ c.entries) : e.Readable := by
  rw [entries, List.mem_append] at h
  -- the path, if there is one, and then the two sizes
  rcases h with h | h
  · cases hpath : c.entities with
    | none =>
      rw [hpath] at h
      cases h
    | some path =>
      rw [hpath] at h
      obtain rfl := List.mem_singleton.1 h
      exact Toml.Entry.readable_string (by decide) (by decide) path
  · rcases List.mem_cons.1 h with rfl | h
    · exact Toml.Entry.readable_integer (by decide) (by decide) (toNat_lt_of_size _)
    · obtain rfl := List.mem_singleton.1 h
      exact Toml.Entry.readable_integer (by decide) (by decide) (toNat_lt_of_size _)

/-- No key of a configuration is written twice. -/
theorem nodup_keys_entries (c : Config) : (c.entries.map Toml.Entry.key).Nodup := by
  -- the keys are known, with the path or without
  cases hentities : c.entities with
  | none =>
    have hkeys : c.entries.map Toml.Entry.key = ["default_page_size", "max_page_size"] := by
      rw [entries, hentities]
      rfl
    rw [hkeys]
    decide
  | some path =>
    have hkeys : c.entries.map Toml.Entry.key =
        ["entities", "default_page_size", "max_page_size"] := by
      rw [entries, hentities]
      rfl
    rw [hkeys]
    decide

/-- A size that was written is read back, whatever the default is. -/
theorem pageSize?_of_lookup {t : TomlTable} {key : String} {n : UInt32}
    (h : t.lookup key = some (.integer n.toNat)) (default : UInt32) :
    pageSize? t key default = some n := by
  rw [pageSize?, h]
  dsimp only
  rw [if_pos ⟨Int.natCast_nonneg _, n.toNat_lt⟩, Int.toNat_natCast, UInt32.ofNat_toNat]

/-- The entries of a configuration are read as that configuration. -/
theorem ofTable?_entries (c : Config) :
    ofTable? (c.entries.map fun e => (e.key, e.value)) = some c := by
  obtain ⟨entities, defaultPageSize, maxPageSize⟩ := c
  cases entities with
  | none =>
    rw [ofTable?, pageSize?_of_lookup (n := defaultPageSize) rfl,
      pageSize?_of_lookup (n := maxPageSize) rfl]
    rfl
  | some path =>
    rw [ofTable?, pageSize?_of_lookup (n := defaultPageSize) rfl,
      pageSize?_of_lookup (n := maxPageSize) rfl]
    rfl

/-- A configuration reads back from its text. -/
theorem ofText?_render (c : Config) : ofText? c.render = some c := by
  rw [ofText?, render_eq,
    Toml.parse?_entries (fun e => readable_of_mem_entries) (nodup_keys_entries c)]
  exact ofTable?_entries c

/-! ## Files -/

/-- A default size up to the largest passes the check. -/
theorem validate_of_le (h : c.defaultPageSize ≤ c.maxPageSize) : c.validate = .ok () := by
  rw [validate, if_neg (UInt32.not_lt.2 h)]

/-- What has passed the check has a default size up to the largest. -/
theorem le_of_validate (h : c.validate = .ok ()) : c.defaultPageSize ≤ c.maxPageSize := by
  rw [validate] at h
  split_ifs at h with hlt
  exact UInt32.not_lt.1 hlt

/-- An absolute path is not resolved against anything. -/
theorem resolve_of_isAbsolute (h : ∀ p, c.entities = some p → Path.isAbsolute p = true)
    (path : String) : c.resolve path = c := by
  rw [resolve]
  split
  · next entities directory hentities hparent => rw [if_pos (h entities hentities)]
  · rfl

/-- A relative path is taken from the directory of the file. -/
theorem resolve_of_relative {p directory : String} (hentities : c.entities = some p)
    (hrelative : Path.isAbsolute p = false) (hparent : Path.parent? path = some directory) :
    c.resolve path = { c with entities := some (Path.join directory p) } := by
  rw [resolve, hentities, hparent]
  simp [hrelative]

/-- What is loaded from a file that a configuration was written to. -/
theorem ofFile_writeFile (h : c.writeFile files path = .ok files') :
    ofFile files' path = c.validate.map fun _ => c.resolve path := by
  rw [writeFile] at h
  split at h
  · next written hwrite =>
    obtain rfl := Except.ok.inj h
    have hread := FileTree.readText_ok_iff.2 (FileTree.find_write hwrite)
    rw [ofFile, hread]
    simp only [ofText?_render]
  · cases h

/-- What a loaded configuration is like. -/
structure Settled (c : Config) : Prop where
  /-- A first page of the default size is allowed. -/
  sizes : c.defaultPageSize ≤ c.maxPageSize
  /-- The path of the list of kinds does not hang on a directory. -/
  entities : ∀ p, c.entities = some p → Path.isAbsolute p = true

/-- A configuration with nothing to check and nothing to resolve is loaded as it was written. -/
theorem ofFile_of_settled (h : c.writeFile files path = .ok files') (hc : c.Settled) :
    ofFile files' path = .ok c := by
  rw [ofFile_writeFile h, validate_of_le hc.sizes, resolve_of_isAbsolute hc.entities]
  rfl

/-- A path resolved against the directory of an absolute path is absolute. -/
theorem isAbsolute_of_resolve (habsolute : Path.isAbsolute path = true) {directory p : String}
    (hparent : Path.parent? path = some directory) (h : (c.resolve path).entities = some p) :
    Path.isAbsolute p = true := by
  have hdirectory := Path.isAbsolute_of_parent? habsolute hparent
  rw [resolve, hparent] at h
  cases hentities : c.entities with
  | none =>
    rw [hentities] at h
    cases hentities.symm.trans h
  | some entities =>
    rw [hentities] at h
    dsimp only at h
    split_ifs at h with hentity
    · -- an absolute path was kept, and a relative one taken from the directory
      obtain rfl := Option.some.inj (hentities.symm.trans h)
      exact hentity
    · obtain rfl := Option.some.inj h
      exact Path.isAbsolute_join hdirectory entities

/-- Resolving the path leaves the sizes as they are. -/
theorem sizes_resolve (c : Config) (path : String) :
    (c.resolve path).defaultPageSize = c.defaultPageSize ∧
      (c.resolve path).maxPageSize = c.maxPageSize := by
  rw [resolve]
  split
  · split_ifs <;> exact ⟨rfl, rfl⟩
  · exact ⟨rfl, rfl⟩

/-- What is loaded from an absolute path has been checked and resolved. -/
theorem settled_of_ofFile (habsolute : Path.isAbsolute path = true)
    (h : ofFile files path = .ok c) : c.Settled := by
  rw [ofFile] at h
  split at h
  · cases h
  · next text hread =>
    split at h
    · cases h
    · next written hwritten =>
      cases hvalidate : written.validate with
      | error e =>
        rw [hvalidate] at h
        cases h
      | ok u =>
        rw [hvalidate] at h
        obtain rfl := Except.ok.inj h
        obtain ⟨directory, hparent⟩ := FileTree.exists_parent?_of_readText hread
        obtain ⟨hdefault, hmax⟩ := sizes_resolve written path
        refine ⟨?_, fun p => isAbsolute_of_resolve habsolute hparent⟩
        -- the sizes were checked before the path was resolved, and are the same after it
        rw [hdefault, hmax]
        exact le_of_validate hvalidate

/-- A configuration that was written to a file is loaded from it again, with its sizes checked and
    a relative path taken from the directory; once loaded, it is the same in any file. -/
theorem files_exact (habsolute : Path.isAbsolute path = true) :
    (∀ (c : Config) (files files' : FileTree), c.writeFile files path = .ok files' →
      (c.defaultPageSize ≤ c.maxPageSize →
        (∀ p, c.entities = some p → Path.isAbsolute p = true) → ofFile files' path = .ok c) ∧
      (c.defaultPageSize ≤ c.maxPageSize →
        ∀ p, c.entities = some p → Path.isAbsolute p = false →
          ∃ directory, Path.parent? path = some directory ∧
            ofFile files' path = .ok { c with entities := some (Path.join directory p) }) ∧
      (c.maxPageSize < c.defaultPageSize →
        ∃ reason, ofFile files' path = .error (.invalidInput reason))) ∧
    ∀ (files : FileTree) (c : Config), ofFile files path = .ok c →
      c.Settled ∧
        ∀ (other : String) (files files' : FileTree), Path.isAbsolute other = true →
          c.writeFile files other = .ok files' → ofFile files' other = .ok c := by
  refine ⟨fun c files files' hwrite => ⟨?_, ?_, ?_⟩, fun files c hload => ?_⟩
  · exact fun hsizes hentities => ofFile_of_settled hwrite ⟨hsizes, hentities⟩
  · intro hsizes p hentities hrelative
    -- a path that was written to names a file, so it has a parent
    obtain ⟨directory, hparent⟩ : ∃ directory, Path.parent? path = some directory := by
      rw [writeFile] at hwrite
      split at hwrite
      · next written hwritten =>
        exact FileTree.exists_parent?_of_readText
          (FileTree.readText_ok_iff.2 (FileTree.find_write hwritten))
      · cases hwrite
    refine ⟨directory, hparent, ?_⟩
    rw [ofFile_writeFile hwrite, validate_of_le hsizes,
      resolve_of_relative hentities hrelative hparent]
    rfl
  · intro hsizes
    rw [ofFile_writeFile hwrite, validate, if_pos hsizes]
    exact ⟨_, rfl⟩
  · have hsettled := settled_of_ofFile habsolute hload
    exact ⟨hsettled, fun other files files' _ hwrite => ofFile_of_settled hwrite hsettled⟩

/-- Two directories. -/
def directories : FileTree := .directory [("etc", .directory []), ("srv", .directory [])]

/-- A list of kinds beside the file. -/
def beside : Config := ⟨some "it's \x22here\x22\n", 7, 70⟩

/-- The path is resolved against the directory of the first file, and no more in the second. -/
theorem files_exact_beside :
    ∃ first second,
      beside.writeFile directories "/etc/./store.toml" = .ok first ∧
      ofFile first "/etc/./store.toml" = .ok ⟨some "/etc/it's \x22here\x22\n", 7, 70⟩ ∧
      Config.writeFile ⟨some "/etc/it's \x22here\x22\n", 7, 70⟩ directories "/srv/../copy" =
        .ok second ∧
      ofFile second "/srv/../copy" = .ok ⟨some "/etc/it's \x22here\x22\n", 7, 70⟩ := by
  have hfirst : (beside.writeFile directories "/etc/./store.toml").isOk = true := by
    decide +kernel
  have hsecond : (Config.writeFile ⟨some "/etc/it's \x22here\x22\n", 7, 70⟩ directories
      "/srv/../copy").isOk = true := by
    decide +kernel
  -- both writes succeed, so each case of a failure is void
  cases hwrite : beside.writeFile directories "/etc/./store.toml" with
  | error e =>
    rw [hwrite] at hfirst
    cases hfirst
  | ok first =>
    cases hcopy : Config.writeFile ⟨some "/etc/it's \x22here\x22\n", 7, 70⟩ directories
        "/srv/../copy" with
    | error e =>
      rw [hcopy] at hsecond
      cases hsecond
    | ok second =>
      have habsolute : Path.isAbsolute "/etc/./store.toml" = true := by decide
      have hexact := files_exact habsolute
      obtain ⟨directory, hparent, hload⟩ :=
        (hexact.1 beside directories first hwrite).2.1 (by decide) _ rfl (by decide)
      have hdirectory : directory = "/etc" :=
        Option.some.inj (hparent.symm.trans (by decide +kernel))
      subst hdirectory
      have hpath : Path.join "/etc" "it's \x22here\x22\n" = "/etc/it's \x22here\x22\n" := by
        decide +kernel
      rw [hpath] at hload
      exact ⟨first, second, rfl, hload, rfl,
        (hexact.2 first _ hload).2 _ directories second (by decide) hcopy⟩

end Config

end EntityStore
