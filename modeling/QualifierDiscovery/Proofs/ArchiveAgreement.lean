import QualifierDiscovery.Proofs.BundledLoading

/-!
# `Proofs.ArchiveAgreement` — an archive of a tree and the tree itself give the same qualifiers

An archive names each file of a tree by its path, in one flat list; a directory has to be gone down
segment by segment. Both searches come to the same files: those whose place is the package's segments and
one name more (`Node.IsClassAt`).

## Contents
- **Archives of trees.** `Archives` relates the names in an archive to a tree.
- **The two listings.** `exists_bundledName?_iff` for the archive and `mem_stems_iff` for the directory
  meet in `IsClassAt`.
- **Agreement.** `archive_agrees_with_directory` — the same candidates, and from them the same build.
-/

namespace QualifierDiscovery

/-! ## Archives of trees -/

/-- The name under which an archive stores a file of the tree: its path, with slashes. -/
def Node.IsFileEntry (tree : Node) (name : String) : Prop :=
  ∃ place content, tree.at? place = some (.file content) ∧ name = Text.join '/' place

/-- The name under which an archive may store a directory below the tree's root: its path and a slash. -/
def Node.IsDirectoryEntry (tree : Node) (name : String) : Prop :=
  ∃ place entries, place ≠ [] ∧ tree.at? place = some (.directory entries) ∧
    name = Text.join '/' place ++ "/"

/-- The names of an archive of the tree: every file is stored, and nothing that is not in the tree.
    Directories may be stored or not. -/
structure Archives (names : List String) (tree : Node) : Prop where
  stored : ∀ name, tree.IsFileEntry name → name ∈ names
  only : ∀ name ∈ names, tree.IsFileEntry name ∨ tree.IsDirectoryEntry name

/-- A file directly in the directory to which the segments lead, with the name of a compiled class. -/
def Node.IsClassAt (tree : Node) (layout : Layout) (segments : List String) (stem : String) : Prop :=
  ∃ name content, tree.at? (segments ++ [name]) = some (.file content) ∧
    layout.compiledStem? name = some stem

/-- No class has the empty name for its file. -/
theorem Layout.compiledStem?_empty (layout : Layout) : layout.compiledStem? "" = none := by
  rw [Option.eq_none_iff_forall_ne_some]
  intro stem hstem
  obtain ⟨happend, hne⟩ := stem?_eq_some_iff.mp hstem
  have hchars := congrArg String.toList happend
  rw [String.toList_append, String.toList_empty] at hchars
  exact hne (String.toList_eq_nil_iff.mp (List.append_eq_nil_iff.mp hchars.symm).1)

variable {fs : FileSystem} {layout : Layout} {package : Package} {names : List String}
  {entries : List (String × Node)} {stem : String}

/-- The names that lead to a node come back out of its path. -/
theorem split_place {place : Place} {node : Node} (hwf : (Node.directory entries).WellFormed)
    (hnode : (Node.directory entries).at? place = some node) (hplace : place ≠ []) :
    Text.split '/' (Text.join '/' place) = place :=
  Text.split_join
    (fun name hname => (isEntryName_iff.mp (hwf.isEntryName_of_mem hnode name hname)).2.2.2.1) hplace

theorem place_ne_nil {place : Place} {content : ByteArray}
    (h : (Node.directory entries).at? place = some (.file content)) : place ≠ [] := by
  rintro rfl
  exact absurd h (by simp [Node.at?])

/-! ## The listing of an archive -/

theorem bundledName?_eq_some_iff {entry : String} :
    bundledName? layout package entry = some stem ↔
      ∃ rest, Text.split '/' entry = package.segments ++ [rest] ∧
        layout.compiledStem? rest = some stem := by
  unfold bundledName?
  constructor
  · intro h
    split at h
    · next rest hrest =>
      have hentry := Package.eq_entryStart_append_iff.mp (Text.stripStart?_eq_some_iff.mp hrest)
      split at h
      · exact absurd h (by simp)
      · next hslash =>
        rw [Text.split_eq_singleton fun hmem => hslash (List.contains_iff_mem.mpr hmem)] at hentry
        exact ⟨rest, hentry, h⟩
    · exact absurd h (by simp)
  · rintro ⟨rest, hentry, hstem⟩
    have hpiece : rest ∈ Text.split '/' entry := by
      rw [hentry]
      simp
    have hslash := Text.notMem_of_mem_split hpiece
    rw [← Text.split_eq_singleton hslash] at hentry
    have hstrip := Text.stripStart?_eq_some_iff.mpr (Package.eq_entryStart_append_iff.mpr hentry)
    rw [hstrip]
    simp only [List.contains_iff_mem, hslash, if_false, hstem]

theorem startsWith_of_bundledName? {entry : String}
    (h : bundledName? layout package entry = some stem) :
    Text.startsWith package.entryStart entry = true := by
  unfold bundledName? at h
  split at h
  · next rest hrest =>
    exact Text.startsWith_iff.mpr ⟨rest, Text.stripStart?_eq_some_iff.mp hrest⟩
  · exact absurd h (by simp)

/-- **What an archive of a tree lists**: the classes at the package's place in the tree. -/
theorem exists_bundledName?_iff (hwf : (Node.directory entries).WellFormed)
    (harchives : Archives names (.directory entries)) :
    (∃ name ∈ names, bundledName? layout package name = some stem) ↔
      (Node.directory entries).IsClassAt layout package.segments stem := by
  constructor
  · rintro ⟨name, hname, hbundled⟩
    obtain ⟨rest, hsplit, hstem⟩ := bundledName?_eq_some_iff.mp hbundled
    rcases harchives.only name hname with ⟨place, content, hat, rfl⟩ | ⟨place, below, hne, hat, rfl⟩
    · rw [split_place hwf hat (place_ne_nil hat)] at hsplit
      exact ⟨rest, content, hsplit ▸ hat, hstem⟩
    · -- a directory's name ends in an empty piece, and no class file has the empty name
      rw [Path.split_append_slash] at hsplit
      rw [← List.singleton_inj.mp (List.append_inj_right' hsplit rfl),
        layout.compiledStem?_empty] at hstem
      exact absurd hstem (by simp)
  · rintro ⟨name, content, hat, hstem⟩
    refine ⟨_, harchives.stored _ ⟨_, content, hat, rfl⟩, bundledName?_eq_some_iff.mpr ⟨name, ?_, hstem⟩⟩
    exact split_place hwf hat (place_ne_nil hat)

/-- An archive that is read gives its list, found or not: where the package is not found, the list is
    empty. -/
theorem bundledNames_of_archive {entry path : String} (harchive : layout.isArchive entry = true)
    (hpath : Path.absolute? fs.workingDirectory entry = some path)
    (hnames : archiveNames fs path = .ok names) :
    bundledNames fs layout package (locateIn fs layout package entry).1 =
      .ok (Text.sortedSet (names.filterMap (bundledName? layout package))) := by
  rw [locateIn_eq hpath, if_pos harchive]
  by_cases hholds : archiveHolds fs package path = true
  · rw [if_pos hholds, bundledNames, namesInArchive, hnames]
  · rw [if_neg hholds, bundledNames]
    -- no name begins with the package, so none is listed either
    have hnone : names.filterMap (bundledName? layout package) = [] := by
      rw [List.filterMap_eq_nil_iff]
      intro name hname
      rw [Option.eq_none_iff_forall_ne_some]
      intro stem hstem
      exact hholds (archiveHolds_iff.mpr ⟨names, hnames, name, hname,
        startsWith_of_bundledName? hstem⟩)
    rw [hnone]
    rfl

/-! ## The listing of a directory -/

/-- The simple names that the files of a directory give. -/
theorem mem_stems_iff {path : String} {place : Place}
    (h : fs.resolve path = .ok (.present place (.directory entries)))
    (hfree : (Node.directory entries).LinkFree) :
    stem ∈ ((entries.map Prod.fst).filter fun name => fs.isFile (Path.join path name)).filterMap
        layout.compiledStem? ↔
      ∃ name content, (name, .file content) ∈ entries ∧ layout.compiledStem? name = some stem := by
  have hwf := FileSystem.wellFormed_of_resolve h
  rw [List.mem_filterMap]
  constructor
  · rintro ⟨name, hname, hstem⟩
    obtain ⟨hlisted, hfile⟩ := List.mem_filter.mp hname
    obtain ⟨⟨name, node⟩, hmem, rfl⟩ := List.mem_map.mp hlisted
    have hresolve := FileSystem.resolve_join h hmem (hfree.of_mem hwf hmem).ne_link
    obtain ⟨there, content, hcontent⟩ := FileSystem.isFile_iff.mp hfile
    rw [hresolve, Except.ok.injEq, Target.present.injEq] at hcontent
    exact ⟨name, content, hcontent.2 ▸ hmem, hstem⟩
  · rintro ⟨name, content, hmem, hstem⟩
    have hresolve := FileSystem.resolve_join h hmem (by simp)
    exact ⟨name, List.mem_filter.mpr ⟨List.mem_map.mpr ⟨_, hmem, rfl⟩,
      FileSystem.isFile_iff.mpr ⟨_, content, hresolve⟩⟩, hstem⟩

theorem packageDirectory?_eq_some_iff {path found : String} {place : Place}
    (h : fs.resolve path = .ok (.present place (.directory entries)))
    (hfree : (Node.directory entries).LinkFree) (hlists : fs.ListsTree path (.directory entries)) :
    packageDirectory? fs package path = some found ↔
      found = Path.joinAll path package.segments ∧
        ∃ below, (Node.directory entries).at? package.segments = some (.directory below) := by
  unfold packageDirectory?
  rw [if_pos (FileSystem.isDirectory_iff.mpr ⟨_, _, h⟩)]
  exact descend_eq_some_iff h hfree hlists

/-- **What a directory lists**: the classes at the package's place in its tree; none where the package is
    not found. -/
theorem bundledNames_of_directory {entry path : String} {place : Place} (package : Package)
    (harchive : layout.isArchive entry = false)
    (hpath : Path.absolute? fs.workingDirectory entry = some path)
    (h : fs.resolve path = .ok (.present place (.directory entries)))
    (hfree : (Node.directory entries).LinkFree) (hlists : fs.ListsTree path (.directory entries)) :
    ∃ stems, bundledNames fs layout package (locateIn fs layout package entry).1 =
        .ok (Text.sortedSet stems) ∧
      ∀ stem, stem ∈ stems ↔
        (Node.directory entries).IsClassAt layout package.segments stem := by
  rw [locateIn_eq hpath, harchive]
  cases hfound : packageDirectory? fs package path with
  | none =>
    refine ⟨[], rfl, fun stem => iff_of_false List.not_mem_nil ?_⟩
    rintro ⟨name, content, hat, -⟩
    have hdirectory := Node.exists_directory_of_at?_append (by simp) hat
    have hsome := (packageDirectory?_eq_some_iff h hfree hlists).mpr ⟨rfl, hdirectory⟩
    rw [hfound] at hsome
    exact absurd hsome (by simp)
  | some found =>
    obtain ⟨rfl, below, hbelow⟩ := (packageDirectory?_eq_some_iff h hfree hlists).mp hfound
    have hresolve := FileSystem.resolve_joinAll h hfree hbelow
    have hwf := FileSystem.wellFormed_of_resolve hresolve
    refine ⟨((below.map Prod.fst).filter fun name => fs.isFile
      (Path.join (Path.joinAll path package.segments) name)).filterMap layout.compiledStem?,
      ?_, fun stem => ?_⟩
    · have hlist := (FileSystem.listable_iff_canList hresolve).mp (hlists _ _ hbelow)
      show namesInDirectory fs layout _ = _
      rw [namesInDirectory, FileSystem.listDirectory_eq hresolve hlist]
    · rw [mem_stems_iff hresolve (hfree.at? hbelow)]
      refine exists_congr fun name => exists_congr fun content => and_congr_left fun _ => ?_
      rw [Node.at?_concat hbelow]
      exact (valueAt?_eq_some_iff hwf).symm

/-! ## Agreement -/

/-- The entry of the search path is a directory with the given entries, and no directory in it refuses to
    be listed. -/
structure DirectoryOn (fs : FileSystem) (layout : Layout) (entry : String)
    (entries : List (String × Node)) : Prop where
  kind : layout.isArchive entry = false
  content : (Path.absolute? fs.workingDirectory entry).bind fs.nodeAt? = some (.directory entries)
  listed : ∀ path, Path.absolute? fs.workingDirectory entry = some path →
    fs.ListsTree path (.directory entries)

/-- The entry of the search path is an archive whose entries have the given names. -/
structure ArchiveOn (fs : FileSystem) (layout : Layout) (entry : String) (names : List String) :
    Prop where
  kind : layout.isArchive entry = true
  content : ∃ path, Path.absolute? fs.workingDirectory entry = some path ∧
    archiveNames fs path = .ok names

theorem DirectoryOn.exists_resolve {entry : String} (h : DirectoryOn fs layout entry entries) :
    ∃ path place, Path.absolute? fs.workingDirectory entry = some path ∧
      fs.resolve path = .ok (.present place (.directory entries)) ∧
      fs.ListsTree path (.directory entries) := by
  obtain ⟨path, hpath, hnode⟩ := Option.bind_eq_some_iff.mp h.content
  obtain ⟨place, hresolve⟩ := FileSystem.nodeAt?_eq_some_iff.mp hnode
  exact ⟨path, place, hpath, hresolve, h.listed path hpath⟩

/-- Where the directories are stored too, the package is found in both or in neither. -/
theorem archiveHolds_iff_of_archives {path : String} (hwf : (Node.directory entries).WellFormed)
    (hnames : archiveNames fs path = .ok names) (harchives : Archives names (.directory entries))
    (hdirectories : ∀ name, (Node.directory entries).IsDirectoryEntry name → name ∈ names) :
    archiveHolds fs package path = true ↔
      ∃ below, (Node.directory entries).at? package.segments = some (.directory below) := by
  rw [archiveHolds_iff]
  constructor
  · rintro ⟨read, hread, name, hname, hstarts⟩
    rw [hnames, Except.ok.injEq] at hread
    subst hread
    obtain ⟨rest, hrest⟩ := Text.startsWith_iff.mp hstarts
    have hsplit := Package.eq_entryStart_append_iff.mp hrest
    rcases harchives.only name hname with ⟨place, content, hat, rfl⟩ | ⟨place, below, hne, hat, rfl⟩
    · rw [split_place hwf hat (place_ne_nil hat)] at hsplit
      exact Node.exists_directory_of_at?_append Text.split_ne_nil (hsplit ▸ hat)
    · -- the last piece is the empty one after the slash, the others are the directory's place
      rw [Path.split_append_slash, split_place hwf hat hne] at hsplit
      have hplace := congrArg List.dropLast hsplit
      rw [List.dropLast_concat, List.dropLast_append_of_ne_nil Text.split_ne_nil] at hplace
      by_cases hrest : (Text.split '/' rest).dropLast = []
      · rw [hrest, List.append_nil] at hplace
        exact ⟨below, hplace ▸ hat⟩
      · exact Node.exists_directory_of_at?_append hrest (hplace ▸ hat)
  · rintro ⟨below, hbelow⟩
    refine ⟨names, hnames, package.entryStart, hdirectories _ ?_,
      Text.startsWith_iff.mpr ⟨"", by rw [String.append_empty]⟩⟩
    exact ⟨package.segments, below, Package.segments_ne_nil, hbelow, Package.entryStart_eq⟩

theorem isSome_locate_directory_iff {entry : String} (h : DirectoryOn fs layout entry entries)
    (hfree : (Node.directory entries).LinkFree) :
    (locate fs layout package (.ofList [entry])).1.isSome = true ↔
      ∃ below, (Node.directory entries).at? package.segments = some (.directory below) := by
  obtain ⟨path, place, hpath, hresolve, hlists⟩ := h.exists_resolve
  rw [locate_singleton, locateIn_eq hpath, h.kind]
  show (Option.map _ (packageDirectory? fs package path)).isSome = true ↔ _
  rw [Option.isSome_map, Option.isSome_iff_exists]
  constructor
  · rintro ⟨found, hfound⟩
    exact ((packageDirectory?_eq_some_iff hresolve hfree hlists).mp hfound).2
  · exact fun hbelow => ⟨_, (packageDirectory?_eq_some_iff hresolve hfree hlists).mpr ⟨rfl, hbelow⟩⟩

theorem isSome_locate_archive_iff {entry : String} (hwf : (Node.directory entries).WellFormed)
    (h : ArchiveOn fs layout entry names) (harchives : Archives names (.directory entries))
    (hdirectories : ∀ name, (Node.directory entries).IsDirectoryEntry name → name ∈ names) :
    (locate fs layout package (.ofList [entry])).1.isSome = true ↔
      ∃ below, (Node.directory entries).at? package.segments = some (.directory below) := by
  obtain ⟨path, hpath, hnames⟩ := h.content
  rw [locate_singleton, locateIn_eq hpath, if_pos h.kind,
    ← archiveHolds_iff_of_archives hwf hnames harchives hdirectories]
  split
  · next hholds => simp [hholds]
  · next hholds => simp [hholds]

/-- Setups that differ in their search paths load the same qualifiers, or fail alike, if they list the same
    candidates. -/
theorem LoaderSetup.build_map_loaded_eq {setup : LoaderSetup} {one other : SearchPath}
    (h : ∀ package, bundledNames fs setup.config.layout package
        (locate fs setup.config.layout package one).1 =
      bundledNames fs setup.config.layout package
        (locate fs setup.config.layout package other).1) :
    ({ setup with searchPath := one }.build fs).1.map Loader.loaded =
      ({ setup with searchPath := other }.build fs).1.map Loader.loaded := by
  cases hcheck : setup.check with
  | error failure =>
    have hone : { setup with searchPath := one }.check = .error failure := hcheck
    have hother : { setup with searchPath := other }.check = .error failure := hcheck
    rw [build, hone, build, hother]
  | ok parts =>
    obtain ⟨resolver, package⟩ := parts
    have hloaded : ∀ path : SearchPath,
        ({ setup with searchPath := path }.build fs).1.map Loader.loaded =
          loadBundled fs setup.config.layout package
            (locate fs setup.config.layout package path).1 (setup.validatorFor resolver) := by
      intro path
      have hpath : { setup with searchPath := path }.check = .ok (resolver, package) := hcheck
      rw [build_eq hpath]
      show Except.map _ (Except.map _ (loadBundled fs setup.config.layout package
        (locate fs setup.config.layout package path).1 (setup.validatorFor resolver))) = _
      cases loadBundled fs setup.config.layout package
        (locate fs setup.config.layout package path).1 (setup.validatorFor resolver) <;> rfl
    rw [hloaded, hloaded, loadBundled, loadBundled, h]

/-- **An archive agrees with the directory it is an archive of.** For a tree without links, on the search
    path as a directory or as an archive of its files: the same candidates are listed for every package,
    whether the archive stores directories or not; if it stores all of them, the package is found in both
    or in neither; and setups that differ only in this build to the same qualifiers in the same order, or
    fail with the same error. -/
theorem archive_agrees_with_directory {directory archive : String}
    (hdirectory : DirectoryOn fs layout directory entries)
    (hfree : (Node.directory entries).LinkFree) (harchive : ArchiveOn fs layout archive names)
    (harchives : Archives names (.directory entries)) :
    (∀ package, ∃ candidates,
      bundledNames fs layout package (locate fs layout package (.ofList [directory])).1 =
          .ok candidates ∧
        bundledNames fs layout package (locate fs layout package (.ofList [archive])).1 =
          .ok candidates) ∧
    ((∀ name, (Node.directory entries).IsDirectoryEntry name → name ∈ names) → ∀ package,
      ((locate fs layout package (.ofList [directory])).1.isSome ↔
        (locate fs layout package (.ofList [archive])).1.isSome)) ∧
    ∀ setup : LoaderSetup, setup.config.layout = layout →
      ({ setup with searchPath := .ofList [directory] }.build fs).1.map Loader.loaded =
        ({ setup with searchPath := .ofList [archive] }.build fs).1.map Loader.loaded := by
  obtain ⟨path, place, hpath, hresolve, hlists⟩ := hdirectory.exists_resolve
  obtain ⟨archivePath, harchivePath, hnames⟩ := harchive.content
  have hwf : (Node.directory entries).WellFormed := fs.wellFormed.at? (FileSystem.at?_of_resolve hresolve)
  have hcandidates : ∀ package, ∃ candidates,
      bundledNames fs layout package (locate fs layout package (.ofList [directory])).1 =
          .ok candidates ∧
        bundledNames fs layout package (locate fs layout package (.ofList [archive])).1 =
          .ok candidates := by
    intro package
    obtain ⟨stems, hstems, hmem⟩ :=
      bundledNames_of_directory package hdirectory.kind hpath hresolve hfree hlists
    refine ⟨_, by rw [locate_singleton, hstems], ?_⟩
    rw [locate_singleton, bundledNames_of_archive harchive.kind harchivePath hnames]
    congr 1
    apply Text.sortedSet_eq_of_mem_iff
    intro stem
    rw [hmem, List.mem_filterMap]
    exact exists_bundledName?_iff hwf harchives
  refine ⟨hcandidates, fun hdirectories package => ?_, ?_⟩
  · rw [isSome_locate_directory_iff hdirectory hfree,
      isSome_locate_archive_iff hwf harchive harchives hdirectories]
  · rintro setup rfl
    apply LoaderSetup.build_map_loaded_eq
    intro package
    obtain ⟨candidates, hone, hother⟩ := hcandidates package
    rw [hone, hother]

/-- A tree of one class in the package `qual`. -/
def oneClass : List (String × Node) := [("qual", .directory [("A.class", .file .empty)])]

/-- The directory of an archive with the one entry `qual/A.class`. -/
def oneClassArchive : ByteArray :=
  ⟨#[80, 75, 1, 2, 20, 0, 20, 0, 0, 0, 0, 0, 0, 0, 0, 0, 0, 0, 0, 0, 0, 0, 0, 0, 0, 0, 0, 0, 12, 0, 0,
    0, 0, 0, 0, 0, 0, 0, 0, 0, 0, 0, 0, 0, 0, 0, 113, 117, 97, 108, 47, 65, 46, 99, 108, 97, 115, 115,
    80, 75, 5, 6, 0, 0, 0, 0, 1, 0, 1, 0, 58, 0, 0, 0, 0, 0, 0, 0, 0, 0]⟩

/-- The tree and its archive side by side. -/
def oneClassTwice : FileSystem where
  root := .directory [("d", .directory oneClass), ("j.jar", .file oneClassArchive)]
  workingPlace := []
  wellFormed := by
    simp only [Node.WellFormed, EntriesWellFormed, oneClass, List.mem_singleton, List.not_mem_nil,
      false_implies, implies_true, and_true, forall_eq]
    decide

theorem linkFree_oneClass : (Node.directory oneClass).LinkFree := by
  apply Node.linkFree_directory
  intro entry hentry
  rw [List.mem_singleton.mp hentry]
  apply Node.linkFree_directory
  intro entry hentry
  rw [List.mem_singleton.mp hentry]
  exact Node.linkFree_file _

theorem archives_oneClass : Archives ["qual/A.class"] (.directory oneClass) := by
  refine ⟨?_, ?_⟩
  · rintro _ ⟨place, content, hat, rfl⟩
    match place with
    | [] => exact absurd hat (by simp [Node.at?])
    | [first] =>
      rw [oneClass, Node.at?_directory_cons, Text.valueAt?] at hat
      split at hat
      · exact absurd hat (by simp [Node.at?])
      · exact absurd hat (by simp [Text.valueAt?])
    | first :: second :: rest =>
      rw [oneClass, Node.at?_directory_cons, Text.valueAt?] at hat
      split at hat
      · next hfirst =>
        rw [Option.bind_some, Node.at?_directory_cons, Text.valueAt?] at hat
        split at hat
        · next hsecond =>
          cases rest with
          | nil =>
            rw [← hfirst, ← hsecond]
            decide
          | cons third more => exact absurd hat (by simp [Node.at?])
        · exact absurd hat (by simp [Text.valueAt?])
      · exact absurd hat (by simp [Text.valueAt?])
  · intro name hname
    rw [List.mem_singleton.mp hname]
    exact Or.inl ⟨["qual", "A.class"], .empty, rfl, by decide⟩

theorem archive_agrees_oneClass :
    DirectoryOn oneClassTwice .java "/d" oneClass ∧
    ArchiveOn oneClassTwice .java "/j.jar" ["qual/A.class"] ∧
    ∀ setup : LoaderSetup, setup.config.layout = .java →
      ({ setup with searchPath := .ofList ["/d"] }.build oneClassTwice).1.map Loader.loaded =
        ({ setup with searchPath := .ofList ["/j.jar"] }.build oneClassTwice).1.map
          Loader.loaded := by
  have hdirectory : DirectoryOn oneClassTwice .java "/d" oneClass := by
    refine ⟨by decide, rfl, fun path hpath => ?_⟩
    obtain rfl : "/d" = path := Option.some.inj hpath
    have hresolve : oneClassTwice.resolve "/d" = .ok (.present ["d"] (.directory oneClass)) := rfl
    exact FileSystem.listsTree_of_linkFree hresolve linkFree_oneClass rfl
  have harchive : ArchiveOn oneClassTwice .java "/j.jar" ["qual/A.class"] := by
    refine ⟨by decide, "/j.jar", by decide, ?_⟩
    have hread : oneClassTwice.readFile "/j.jar" = .ok oneClassArchive := rfl
    have hnames : Archive.entryNames? oneClassArchive = some ["qual/A.class"] := by decide +kernel
    rw [archiveNames, hread]
    simp only [hnames]
  exact ⟨hdirectory, harchive, (archive_agrees_with_directory hdirectory linkFree_oneClass harchive
    archives_oneClass).2.2⟩

end QualifierDiscovery
