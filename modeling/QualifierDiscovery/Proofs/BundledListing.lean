import QualifierDiscovery.Proofs.ArchiveAgreement

/-!
# `Proofs.BundledListing` — which simple names a location gives

A location gives a simple name exactly if a class file of that name lies directly in the package there
(`bundledNames_exact`): as an entry of the directory that leads to a regular file, or as a stored entry of the
archive with nothing but the file's name behind the package. The suffix is cut off and put back without
looking at what it is, so this holds of every layout.

## Contents
- **Suffixes.** `mem_filterMap_stem?_iff` — cutting a suffix off file names.
- **Directories.** `CountsAsFile` has one case for a file and one for a link; `isFile_join_iff`.
- **Archives.** `bundledName?_eq_some_iff_eq` — what the name of an entry is made of.
- **Locations.** `HasMember` joins the two kinds of locations, `bundledNames_exact` the listings.
-/

namespace QualifierDiscovery

/-! ## Suffixes -/

/-- Cutting a suffix off file names gives what stands before it in one of them, unless that is nothing. -/
theorem mem_filterMap_stem?_iff {suffix stem : String} {files : List String} :
    stem ∈ files.filterMap (Layout.stem? suffix) ↔ stem ≠ "" ∧ stem ++ suffix ∈ files := by
  rw [List.mem_filterMap]
  constructor
  · rintro ⟨file, hfile, hstem⟩
    obtain ⟨rfl, hne⟩ := Layout.stem?_eq_some_iff.mp hstem
    exact ⟨hne, hfile⟩
  · rintro ⟨hne, hfile⟩
    exact ⟨_, hfile, Layout.stem?_eq_some_iff.mpr ⟨rfl, hne⟩⟩

/-! ## Directories -/

namespace FileSystem

variable {fs : FileSystem} {path name : String} {place : Place} {entries : List (String × Node)}

/-- An entry of a directory that counts as a regular file: it is one, or it is a link and the entry's path
    leads to one. -/
inductive CountsAsFile (fs : FileSystem) (path : String) : Node → Prop
  | file (content : ByteArray) : CountsAsFile fs path (.file content)
  | link {target : String} {there : Place} {content : ByteArray}
    (hresolve : fs.resolve path = .ok (.present there (.file content))) :
    CountsAsFile fs path (.link target)

/-- The test for a regular file at the path of an entry tells what the entry is. -/
theorem isFile_join_iff {node : Node} (h : fs.resolve path = .ok (.present place (.directory entries)))
    (hmem : (name, node) ∈ entries) :
    fs.isFile (Path.join path name) = true ↔ fs.CountsAsFile (Path.join path name) node := by
  rw [isFile_iff]
  cases node with
  | file content =>
    exact iff_of_true ⟨_, content, resolve_join h hmem (by simp)⟩ (.file content)
  | directory below =>
    refine iff_of_false ?_ (fun hcounts => by cases hcounts)
    rintro ⟨there, content, hfile⟩
    rw [resolve_join h hmem (by simp), Except.ok.injEq, Target.present.injEq] at hfile
    exact absurd hfile.2 (by simp)
  | link target =>
    constructor
    · rintro ⟨there, content, hfile⟩
      exact .link hfile
    · rintro (_ | hresolve)
      exact ⟨_, _, hresolve⟩

theorem mem_filter_isFile_iff (h : fs.resolve path = .ok (.present place (.directory entries))) :
    name ∈ (entries.map Prod.fst).filter (fun name => fs.isFile (Path.join path name)) ↔
      ∃ node, (name, node) ∈ entries ∧ fs.CountsAsFile (Path.join path name) node := by
  rw [List.mem_filter, List.mem_map]
  constructor
  · rintro ⟨⟨⟨_, node⟩, hmem, rfl⟩, hfile⟩
    exact ⟨node, hmem, (isFile_join_iff h hmem).mp hfile⟩
  · rintro ⟨node, hmem, hcounts⟩
    exact ⟨⟨_, hmem, rfl⟩, (isFile_join_iff h hmem).mpr hcounts⟩

end FileSystem

/-! ## Archives -/

variable {fs : FileSystem} {layout : Layout} {package : Package} {location : Location}

/-- An entry gives a simple name if it is the package, the name and the suffix, with no slash behind the
    package. -/
theorem bundledName?_eq_some_iff_eq {entry stem : String} :
    bundledName? layout package entry = some stem ↔
      stem ≠ "" ∧ '/' ∉ (stem ++ layout.compiledSuffix).toList ∧
        entry = package.entryStart ++ (stem ++ layout.compiledSuffix) := by
  rw [bundledName?_eq_some_iff]
  constructor
  · rintro ⟨file, hsplit, hstem⟩
    have hslash : '/' ∉ file.toList := Text.notMem_of_mem_split (hsplit ▸ List.mem_concat_self)
    rw [← Text.split_eq_singleton hslash] at hsplit
    obtain ⟨rfl, hne⟩ := Layout.stem?_eq_some_iff.mp hstem
    exact ⟨hne, hslash, Package.eq_entryStart_append_iff.mpr hsplit⟩
  · rintro ⟨hne, hslash, hentry⟩
    refine ⟨_, ?_, Layout.stem?_eq_some_iff.mpr ⟨rfl, hne⟩⟩
    rw [← Text.split_eq_singleton hslash]
    exact Package.eq_entryStart_append_iff.mp hentry

/-! ## Locations -/

namespace Location

/-- The location is what it is said to be: a directory that can be listed, or an archive that can be
    read. -/
inductive Opens (fs : FileSystem) : Location → Prop
  | directory {path : String} (hpath : fs.Listable path) : Opens fs (.directory path)
  | archive {path : String} {content : ByteArray} {stored : List String}
    (hcontent : fs.readFile path = .ok content) (hstored : Archive.entryNames? content = some stored) :
    Opens fs (.archive path)

/-- A file of this name lies directly in the package at a location. In a directory it is an entry that
    counts as a regular file. In an archive it is stored behind the package, and its name has no slash. -/
inductive HasMember (fs : FileSystem) (package : Package) (name : String) : Location → Prop
  | directory {path : String} {place : Place} {entries : List (String × Node)} {node : Node}
    (hpath : fs.resolve path = .ok (.present place (.directory entries)))
    (hentry : (name, node) ∈ entries) (hfile : fs.CountsAsFile (Path.join path name) node) :
    HasMember fs package name (.directory path)
  | archive {path : String} {content : ByteArray} {stored : List String}
    (hcontent : fs.readFile path = .ok content) (hstored : Archive.entryNames? content = some stored)
    (hslash : '/' ∉ name.toList) (hentry : package.entryStart ++ name ∈ stored) :
    HasMember fs package name (.archive path)

theorem hasMember_directory_iff {path name : String} {place : Place} {entries : List (String × Node)}
    (h : fs.resolve path = .ok (.present place (.directory entries))) :
    (directory path).HasMember fs package name ↔
      ∃ node, (name, node) ∈ entries ∧ fs.CountsAsFile (Path.join path name) node := by
  constructor
  · rintro (⟨hpath, hentry, hfile⟩ | _)
    obtain ⟨-, hentries⟩ := Target.present.inj (Except.ok.inj (h.symm.trans hpath))
    exact ⟨_, Node.directory.inj hentries ▸ hentry, hfile⟩
  · rintro ⟨node, hentry, hfile⟩
    exact .directory h hentry hfile

theorem hasMember_archive_iff {path name : String} {stored : List String}
    (h : archiveNames fs path = .ok stored) :
    (archive path).HasMember fs package name ↔
      '/' ∉ name.toList ∧ package.entryStart ++ name ∈ stored := by
  obtain ⟨content, hcontent, hstored⟩ := archiveNames_eq_ok_iff.mp h
  constructor
  · rintro (_ | ⟨hcontent', hstored', hslash, hentry⟩)
    obtain rfl := Except.ok.inj (hcontent.symm.trans hcontent')
    obtain rfl := Option.some.inj (hstored.symm.trans hstored')
    exact ⟨hslash, hentry⟩
  · rintro ⟨hslash, hentry⟩
    exact .archive hcontent hstored hslash hentry

/-- What lies directly in the package has the name of one file. -/
theorem HasMember.slash_notMem {name : String} (h : location.HasMember fs package name) :
    '/' ∉ name.toList := by
  cases h with
  | directory hpath hentry _ =>
    have hname := (FileSystem.wellFormed_of_resolve hpath).isEntryName_of_mem hentry
    exact (isEntryName_iff.mp hname).2.2.2.1
  | archive _ _ hslash _ => exact hslash

end Location

/-- A location is listed exactly if it opens. -/
theorem exists_bundledNames_iff :
    (∃ names, bundledNames fs layout package (some location) = .ok names) ↔ location.Opens fs := by
  constructor
  · rintro ⟨names, hnames⟩
    match location with
    | .directory path =>
      rw [bundledNames, namesInDirectory] at hnames
      split at hnames
      · next listed hlisted =>
        exact .directory ⟨listed, hlisted⟩
      · exact absurd hnames (by simp)
    | .archive path =>
      rw [bundledNames, namesInArchive] at hnames
      split at hnames
      · next stored hstored =>
        obtain ⟨content, hcontent, hentries⟩ := archiveNames_eq_ok_iff.mp hstored
        exact .archive hcontent hentries
      · exact absurd hnames (by simp)
  · rintro (⟨hpath⟩ | ⟨hcontent, hstored⟩)
    · obtain ⟨listed, hlisted⟩ := hpath
      exact ⟨_, by rw [bundledNames, namesInDirectory, hlisted]⟩
    · have hnames := archiveNames_eq_ok_iff.mpr ⟨_, hcontent, hstored⟩
      exact ⟨_, by rw [bundledNames, namesInArchive, hnames]⟩

/-- The simple names at a location are those of its direct members. -/
theorem mem_bundledNames_iff {names : List String} {stem : String}
    (h : bundledNames fs layout package (some location) = .ok names) :
    stem ∈ names ↔ stem ≠ "" ∧ location.HasMember fs package (stem ++ layout.compiledSuffix) := by
  cases exists_bundledNames_iff.mp ⟨names, h⟩ with
  | directory hpath =>
    obtain ⟨place, entries, hresolve, hlist⟩ := FileSystem.listable_iff.mp hpath
    rw [bundledNames, namesInDirectory, FileSystem.listDirectory_eq hresolve hlist] at h
    rw [← Except.ok.inj h, Text.mem_sortedSet, Location.hasMember_directory_iff hresolve,
      ← FileSystem.mem_filter_isFile_iff hresolve]
    exact mem_filterMap_stem?_iff
  | archive hcontent hstored =>
    have hnames := archiveNames_eq_ok_iff.mpr ⟨_, hcontent, hstored⟩
    rw [bundledNames, namesInArchive, hnames] at h
    rw [← Except.ok.inj h, Text.mem_sortedSet, Location.hasMember_archive_iff hnames, List.mem_filterMap]
    simp only [bundledName?_eq_some_iff_eq]
    constructor
    · rintro ⟨entry, hentry, hne, hslash, rfl⟩
      exact ⟨hne, hslash, hentry⟩
    · rintro ⟨hne, hslash, hentry⟩
      exact ⟨_, hentry, hne, hslash, rfl⟩

/-- Listings are equal if they have the same members. -/
theorem bundledNames_eq_of_hasMember_iff {fs' : FileSystem} {location' : Location}
    (hopens : location.Opens fs) (hopens' : location'.Opens fs')
    (hmembers : ∀ name, location'.HasMember fs' package name ↔ location.HasMember fs package name) :
    bundledNames fs' layout package (some location') = bundledNames fs layout package (some location) := by
  obtain ⟨names, hnames⟩ : ∃ names, bundledNames fs layout package (some location) = .ok names :=
    exists_bundledNames_iff.mpr hopens
  obtain ⟨names', hnames'⟩ : ∃ names, bundledNames fs' layout package (some location') = .ok names :=
    exists_bundledNames_iff.mpr hopens'
  have hsorted' : Text.IncreasingBy id names' := increasing_bundledNames hnames'
  have hsame : names' = names := by
    apply hsorted'.eq_of_mem_iff (increasing_bundledNames hnames)
    intro stem
    rw [mem_bundledNames_iff hnames', mem_bundledNames_iff hnames, hmembers]
  rw [hnames', hnames, hsame]

/-- **Bundled listing is exact.** A location is listed exactly if it is a directory that can be listed or an
    archive that can be read. The list is in increasing order, and a name is in it exactly if it is not empty and a file with
    the name and the suffix of a compiled class lies directly in the package there; such a file's name has no
    slash. What else there is does not matter: locations with the same files directly in the package are
    listed alike, whatever lies in subdirectories or below longer packages. -/
theorem bundledNames_exact (fs : FileSystem) (layout : Layout) (package : Package) (location : Location) :
    ((∃ names, bundledNames fs layout package (some location) = .ok names) ↔ location.Opens fs) ∧
    (∀ names, bundledNames fs layout package (some location) = .ok names →
      names.Pairwise (fun a b => a < b) ∧
      (∀ stem, stem ∈ names ↔
        stem ≠ "" ∧ location.HasMember fs package (stem ++ layout.compiledSuffix)) ∧
      ∀ stem ∈ names, '/' ∉ (stem ++ layout.compiledSuffix).toList) ∧
    ∀ (fs' : FileSystem) (location' : Location), location.Opens fs → location'.Opens fs' →
      (∀ name, location'.HasMember fs' package name ↔ location.HasMember fs package name) →
      bundledNames fs' layout package (some location') =
        bundledNames fs layout package (some location) := by
  refine ⟨exists_bundledNames_iff, fun names hnames => ⟨increasing_bundledNames hnames, ?_, ?_⟩, ?_⟩
  · exact fun _ => mem_bundledNames_iff hnames
  · exact fun stem hstem => ((mem_bundledNames_iff hnames).mp hstem).2.slash_notMem
  · exact fun _ _ => bundledNames_eq_of_hasMember_iff

/-- A package directory with a class file, links to a file, to nothing and to itself, and directories with a
    class file's name and with a class file in them. -/
def oneLinked : FileSystem where
  root := .directory
    [("qual", .directory
      [("B.class", .link "../stored"), ("A.class", .file .empty), ("C.class", .directory []),
        ("D.class", .link "missing"), ("E.class", .link "E.class"),
        ("sub", .directory [("F.class", .file .empty)])]),
      ("stored", .file .empty)]
  workingPlace := []
  wellFormed := by
    simp only [Node.WellFormed, EntriesWellFormed, List.mem_cons, List.not_mem_nil, or_false,
      forall_eq_or_imp, forall_eq, false_implies, implies_true, and_true]
    decide

theorem bundledNames_exact_oneLinked :
    bundledNames oneLinked .java ⟨"qual", by decide⟩ (some (.directory "/qual")) = .ok ["A", "B"] ∧
      (Location.directory "/qual").HasMember oneLinked ⟨"qual", by decide⟩ "B.class" ∧
      ¬ (Location.directory "/qual").HasMember oneLinked ⟨"qual", by decide⟩ "E.class" := by
  obtain ⟨hopens, hexact, -⟩ :=
    bundledNames_exact oneLinked .java ⟨"qual", by decide⟩ (.directory "/qual")
  obtain ⟨names, hnames⟩ := hopens.mpr (.directory ⟨_, rfl⟩)
  have hlisted : (bundledNames oneLinked .java ⟨"qual", by decide⟩
      (some (.directory "/qual"))).toOption = some ["A", "B"] := by decide +kernel
  rw [hnames] at hlisted
  obtain rfl : names = ["A", "B"] := Option.some.inj hlisted
  obtain ⟨-, hmembers, -⟩ := hexact _ hnames
  exact ⟨hnames, ((hmembers "B").mp (by decide)).2,
    fun hmember => absurd ((hmembers "E").mpr ⟨by decide, hmember⟩) (by decide)⟩

end QualifierDiscovery
