import QualifierDiscovery.Proofs.ExternalLoading
import QualifierDiscovery.Proofs.Files.Reordering
import QualifierDiscovery.Proofs.KitDiscovery

/-!
# `Proofs.ListingOrder` — discovery does not depend on the order of listings

Whatever is looked up in a listing is looked up by its name or by a test that every entry passes or fails by
itself, and whatever is listed is sorted. So each part of discovery gives the same on reordered file systems:
the search for a package (`locate_eq`), the candidates (`bundledNames_eq`, `externalNames_eq`), and with
them the building of a loader and its loads (`build_eq`, `loadDirectory_eq`). A development kit is found
alike too (`discover_eq`); its version is read off a file as a text, and changes if that file is itself an
archive (`discover_changes_version`).

## Contents
- **The search.** `archiveNames`, `locate_eq`.
- **Candidates and loads.** `bundledNames_eq`, `build_eq`, `loadDirectory_eq`.
- **Development kits.** `bootEntries?_eq`, `places_eq`, `discover_eq`.
- **Exactness.** `discovery_eq_of_reordered` collects all of this.
-/

namespace QualifierDiscovery

namespace FileSystem.Reordered

variable {fs other : FileSystem} {layout : Layout} {package : Package} {path : String}

/-! ## The search -/

/-- The entries of an archive are the same up to order. -/
theorem archiveNames (h : fs.Reordered other) (path : String) :
    Related List.Perm (QualifierDiscovery.archiveNames fs path)
      (QualifierDiscovery.archiveNames other path) := by
  unfold QualifierDiscovery.archiveNames
  rcases (h.readFile path).cases with
    ⟨content, content', hcontent, hcontent', hsame⟩ | ⟨cause, hcause, hcause'⟩
  · rw [hcontent, hcontent']
    dsimp only
    cases hsame with
    | same =>
      cases Archive.entryNames? content with
      | none => rfl
      | some names => exact List.Perm.refl names
    | archives hnames hnames' hperm =>
      rw [hnames, hnames']
      exact hperm
  · rw [hcause, hcause']
    rfl

theorem archiveHolds_eq (h : fs.Reordered other) (package : Package) (path : String) :
    archiveHolds other package path = archiveHolds fs package path := by
  unfold archiveHolds
  rcases (h.archiveNames path).cases with
    ⟨names, names', hnames, hnames', hperm⟩ | ⟨fault, hfault, hfault'⟩
  · rw [hnames, hnames']
    exact hperm.any_eq.symm
  · rw [hfault, hfault']

theorem childDirectory?_eq (h : fs.Reordered other) (path name : String) :
    childDirectory? other path name = childDirectory? fs path name := by
  unfold childDirectory?
  rw [h.isDirectory_eq]
  rcases (h.listDirectory path).cases with
    ⟨names, names', hnames, hnames', hperm⟩ | ⟨cause, hcause, hcause'⟩
  · rw [hnames, hnames']
    dsimp only
    rw [hperm.contains_eq]
  · rw [hcause, hcause']

/-- By induction over the segments. -/
theorem descend_eq (h : fs.Reordered other) (path : String) (segments : List String) :
    descend other path segments = descend fs path segments := by
  induction segments generalizing path with
  | nil => rfl
  | cons segment rest ih =>
    rw [descend, descend, h.childDirectory?_eq]
    cases childDirectory? fs path segment with
    | none => rfl
    | some child => exact ih child

theorem packageDirectory?_eq (h : fs.Reordered other) (package : Package) (path : String) :
    packageDirectory? other package path = packageDirectory? fs package path := by
  unfold packageDirectory?
  rw [h.isDirectory_eq, h.descend_eq]

theorem locateIn_eq (h : fs.Reordered other) (layout : Layout) (package : Package)
    (entry : String) :
    locateIn other layout package entry = locateIn fs layout package entry := by
  unfold locateIn
  rw [h.workingDirectory_eq]
  simp only [h.archiveHolds_eq, h.packageDirectory?_eq]

/-- By induction over the entries of the search path. -/
theorem locateAmong_eq (h : fs.Reordered other) (layout : Layout) (package : Package)
    (entries : List String) :
    locateAmong other layout package entries = locateAmong fs layout package entries := by
  induction entries with
  | nil => rfl
  | cons entry rest ih => rw [locateAmong, locateAmong, h.locateIn_eq, ih]

/-- **The search finds the same location** and reports the same. -/
theorem locate_eq (h : fs.Reordered other) (layout : Layout) (package : Package)
    (searchPath : SearchPath) :
    locate other layout package searchPath = locate fs layout package searchPath :=
  h.locateAmong_eq layout package searchPath.entries

/-! ## Candidates and loads -/

theorem namesInArchive_eq (h : fs.Reordered other) (layout : Layout) (package : Package)
    (path : String) :
    namesInArchive other layout package path = namesInArchive fs layout package path := by
  unfold namesInArchive
  rcases (h.archiveNames path).cases with
    ⟨names, names', hnames, hnames', hperm⟩ | ⟨fault, hfault, hfault'⟩
  · rw [hnames, hnames']
    -- the candidates are a sorted set, which has the same members
    have hstems := hperm.filterMap (bundledName? layout package)
    exact congrArg Except.ok (Text.sortedSet_eq_of_mem_iff fun _ => hstems.mem_iff).symm
  · rw [hfault, hfault']

theorem namesInDirectory_eq (h : fs.Reordered other) (layout : Layout) (path : String) :
    namesInDirectory other layout path = namesInDirectory fs layout path := by
  unfold namesInDirectory
  simp only [h.isFile_eq]
  rcases (h.listDirectory path).cases with
    ⟨names, names', hnames, hnames', hperm⟩ | ⟨cause, hcause, hcause'⟩
  · rw [hnames, hnames']
    have hstems := (hperm.filter fun name => fs.isFile (Path.join path name)).filterMap
      layout.compiledStem?
    exact congrArg Except.ok (Text.sortedSet_eq_of_mem_iff fun _ => hstems.mem_iff).symm
  · rw [hcause, hcause']

/-- **The bundled candidates** at any location are the same. -/
theorem bundledNames_eq (h : fs.Reordered other) (layout : Layout) (package : Package)
    (location : Option Location) :
    bundledNames other layout package location = bundledNames fs layout package location := by
  match location with
  | none => rfl
  | some (.archive path) => exact h.namesInArchive_eq layout package path
  | some (.directory path) => exact h.namesInDirectory_eq layout path

/-- **The same loader is built**, or the build fails in the same way, with the same notes. -/
theorem build_eq (h : fs.Reordered other) (setup : LoaderSetup) :
    setup.build other = setup.build fs := by
  unfold LoaderSetup.build LoaderSetup.loadBundled
  simp only [h.locate_eq, h.bundledNames_eq]

theorem externalNames_eq (h : fs.Reordered other) (layout : Layout) (root : String) :
    externalNames other layout root = externalNames fs layout root := by
  unfold externalNames
  rw [h.filesBelow_eq]

/-- **The same qualifiers are loaded from a directory**, in the same order. -/
theorem loadDirectory_eq (h : fs.Reordered other) (loader : Loader) (path : String) :
    loader.loadDirectory other path = loader.loadDirectory fs path := by
  unfold Loader.loadDirectory
  rw [h.isDirectory_eq, h.externalNames_eq]

/-! ## Development kits -/

/-- What is sorted after it was listed is the same. -/
theorem sorted_eq {names names' : List String} (hperm : names.Perm names') :
    Text.sortedBy id names' = Text.sortedBy id names :=
  (Text.sortedBy_eq_of_perm hperm fun _ _ _ _ hsame => hsame).symm

theorem bootEntries?_eq (h : fs.Reordered other) (root : String) :
    Jdk.bootEntries? other root = Jdk.bootEntries? fs root := by
  unfold Jdk.bootEntries?
  simp only [h.isDirectory_eq, h.isFile_eq]
  rcases (h.listDirectory (Path.join root "jmods")).cases with
    ⟨names, names', hnames, hnames', hperm⟩ | ⟨cause, hcause, hcause'⟩
  · rw [hnames, hnames']
    have hmodules := hperm.filter fun name => Text.endsWith Layout.moduleSuffix name
    dsimp only
    rw [hmodules.isEmpty_eq, sorted_eq hmodules]
  · rw [hcause, hcause']

theorem places_eq (h : fs.Reordered other) (search : JdkSearch) :
    search.places other = search.places fs := by
  have hentries : ∀ root, JdkSearch.entryPaths other root = JdkSearch.entryPaths fs root := by
    intro root
    unfold JdkSearch.entryPaths
    rcases (h.listDirectory root).cases with
      ⟨names, names', hnames, hnames', hperm⟩ | ⟨cause, hcause, hcause'⟩
    · rw [hnames, hnames']
      dsimp only
      rw [sorted_eq hperm]
    · rw [hcause, hcause']
  unfold JdkSearch.places
  simp only [hentries]

theorem ofRoot?_eq (h : fs.Reordered other) (root : String) :
    Jdk.ofRoot? other root =
      (Jdk.ofRoot? fs root).map fun jdk => { jdk with version? := Jdk.versionOf? other jdk.root } := by
  unfold Jdk.ofRoot?
  rw [h.bootEntries?_eq, Option.map_map]
  rfl

/-- **The same kit is found**, but for the version that its release file states. -/
theorem discover_eq (h : fs.Reordered other) (search : JdkSearch) :
    search.discover other =
      (search.discover fs).map fun jdk =>
        { jdk with version? := Jdk.versionOf? other jdk.root } := by
  rw [search.discover_eq_findSome?, search.discover_eq_findSome?, h.places_eq, List.map_findSome?]
  congr 1
  funext root
  exact h.ofRoot?_eq root

end FileSystem.Reordered

/-- The file that a path leads to is an archive in both file systems, with its entries in another order. -/
def ReorderedArchive (fs other : FileSystem) (path : String) : Prop :=
  ∃ content content' names names', fs.readFile path = .ok content ∧
    other.readFile path = .ok content' ∧ Archive.entryNames? content = some names ∧
    Archive.entryNames? content' = some names' ∧ names.Perm names'

namespace FileSystem.Reordered

variable {fs other : FileSystem}

theorem readFile_eq_or (h : fs.Reordered other) (path : String) :
    other.readFile path = fs.readFile path ∨ ReorderedArchive fs other path := by
  rcases (h.readFile path).cases with
    ⟨content, content', hcontent, hcontent', hsame⟩ | ⟨cause, hcause, hcause'⟩
  · cases hsame with
    | same => exact Or.inl (hcontent'.trans hcontent.symm)
    | archives hnames hnames' hperm =>
      exact Or.inr ⟨content, content', _, _, hcontent, hcontent', hnames, hnames', hperm⟩
  · exact Or.inl (hcause'.trans hcause.symm)

/-- What is found states the root that was looked at, and the version that was found there. -/
theorem discover_eq_or (h : fs.Reordered other) (search : JdkSearch) :
    search.discover other = search.discover fs ∨
      ∃ jdk, search.discover fs = some jdk ∧
        ReorderedArchive fs other (Path.join jdk.root "release") := by
  rw [h.discover_eq]
  rw [search.discover_eq_findSome?]
  cases hfound : (search.places fs).findSome? (Jdk.ofRoot? fs) with
  | none => exact Or.inl rfl
  | some jdk =>
    rcases h.readFile_eq_or (Path.join jdk.root "release") with hrelease | harchive
    · left
      -- the version was read off the same file
      obtain ⟨root, -, hroot⟩ := List.exists_of_findSome?_eq_some hfound
      obtain ⟨entries, -, rfl⟩ := Option.map_eq_some_iff.mp hroot
      have hversion : Jdk.versionOf? other root = Jdk.versionOf? fs root := by
        unfold Jdk.versionOf? FileSystem.readText
        rw [hrelease]
      exact congrArg (fun version => some (⟨root, version, entries⟩ : Jdk)) hversion
    · exact Or.inr ⟨jdk, rfl, harchive⟩

end FileSystem.Reordered

/-! ## Exactness -/

/-- **Discovery does not depend on the order of listings**, nor on the order of the entries of archives. On
    reordered file systems the search finds the same location and reports the same, the candidates at any
    location are the same, the same loader is built or the build fails in the same way, and from a directory
    the same qualifiers are loaded in the same order. A development kit is found alike, with the same
    directory and boot entries; and with the same version, unless its release file is itself an archive
    whose entries stand in another order. -/
theorem discovery_eq_of_reordered {fs other : FileSystem} (h : fs.Reordered other) :
    (∀ layout package searchPath,
      locate other layout package searchPath = locate fs layout package searchPath) ∧
    (∀ layout package location,
      bundledNames other layout package location = bundledNames fs layout package location) ∧
    (∀ setup : LoaderSetup, setup.build other = setup.build fs) ∧
    (∀ (loader : Loader) path, loader.loadDirectory other path = loader.loadDirectory fs path) ∧
    ∀ search : JdkSearch,
      (search.discover other = (search.discover fs).map fun jdk =>
        { jdk with version? := Jdk.versionOf? other jdk.root }) ∧
      (search.discover other = search.discover fs ∨
        ∃ jdk, search.discover fs = some jdk ∧
          ReorderedArchive fs other (Path.join jdk.root "release")) :=
  ⟨h.locate_eq, h.bundledNames_eq, h.build_eq, h.loadDirectory_eq,
    fun search => ⟨h.discover_eq search, h.discover_eq_or search⟩⟩

/-- A class path with a package `qual` of the given files. -/
def qualifierFiles (entries : List (String × Node)) (h : EntriesWellFormed entries) :
    FileSystem where
  root := .directory [("cp", .directory [("qual", .directory entries)])]
  workingPlace := []
  wellFormed := by
    simp only [Node.WellFormed, EntriesWellFormed, h, List.not_mem_nil, false_implies,
      implies_true, and_true]
    decide

theorem reordered_qualifierFiles {entries others : List (String × Node)}
    (hperm : entries.Perm others) (hwf : EntriesWellFormed entries)
    (hwf' : EntriesWellFormed others) :
    (qualifierFiles entries hwf).Reordered (qualifierFiles others hwf') :=
  ⟨rfl, rfl, .singleton (.singleton (.of_perm hperm hwf hwf') "qual") "cp"⟩

/-- Two compiled classes. -/
def twoClasses : List (String × Node) := [("A.class", .file .empty), ("B.class", .file .empty)]

theorem wellFormed_twoClasses :
    EntriesWellFormed twoClasses ∧ EntriesWellFormed twoClasses.reverse := by
  simp only [twoClasses, List.reverse_cons, List.reverse_nil, List.nil_append, List.cons_append,
    EntriesWellFormed, Node.WellFormed, List.mem_singleton, forall_eq, List.not_mem_nil,
    false_implies, implies_true, and_true]
  decide

theorem discovery_eq_of_reordered_twoClasses :
    (qualifierFiles twoClasses wellFormed_twoClasses.1).Reordered
        (qualifierFiles twoClasses.reverse wellFormed_twoClasses.2) ∧
      bundledNames (qualifierFiles twoClasses.reverse wellFormed_twoClasses.2) .java
        ⟨"qual", by decide⟩ (some (.directory "/cp/qual")) = .ok ["A", "B"] := by
  have hreordered := reordered_qualifierFiles (List.reverse_perm twoClasses).symm
    wellFormed_twoClasses.1 wellFormed_twoClasses.2
  obtain ⟨-, hcandidates, -⟩ := discovery_eq_of_reordered hreordered
  refine ⟨hreordered, ?_⟩
  rw [hcandidates]
  rfl

/-! ## A kit whose release file is an archive -/

/-- A number in a field of the given width, the lowest byte first. -/
def littleEndian : Nat → Nat → List UInt8
  | 0, _ => []
  | width + 1, n => UInt8.ofNat n :: littleEndian width (n / 256)

/-- What the two headers of an entry share, for an entry that is stored without compression. -/
def storedFields (entry : String × String) : List UInt8 :=
  let name := Text.utf8Bytes entry.1
  let content := Text.utf8Bytes entry.2
  littleEndian 2 20 ++ littleEndian 6 0 ++ littleEndian 2 0x21 ++
    littleEndian 4 (Archive.checksum content).toNat ++ littleEndian 4 content.length ++
    littleEndian 4 content.length ++ littleEndian 2 name.length ++ littleEndian 2 0

/-- An entry's header with the name and content behind it. -/
def storedEntry (entry : String × String) : List UInt8 :=
  littleEndian 4 0x04034B50 ++ storedFields entry ++ Text.utf8Bytes entry.1 ++
    Text.utf8Bytes entry.2

/-- The headers in the directory of an archive, for entries of which the next begins at an offset. -/
def directoryHeaders : Nat → List (String × String) → List UInt8
  | _, [] => []
  | offset, entry :: rest =>
    littleEndian 4 Archive.entrySignature ++ littleEndian 2 20 ++ storedFields entry ++
      littleEndian 10 0 ++ littleEndian 4 offset ++ Text.utf8Bytes entry.1 ++
      directoryHeaders (offset + (storedEntry entry).length) rest

/-- An archive of the given names and contents in their order. -/
def storedArchive (entries : List (String × String)) : ByteArray :=
  let stored := entries.flatMap storedEntry
  let headers := directoryHeaders 0 entries
  let count := littleEndian 2 entries.length
  ⟨(stored ++ headers ++ littleEndian 4 Archive.endSignature ++ littleEndian 4 0 ++ count ++ count ++
    littleEndian 4 headers.length ++ littleEndian 4 stored.length ++ littleEndian 2 0).toArray⟩

/-- A kit with a modules file and the given release file. -/
def kitWithRelease (release : ByteArray) : FileSystem where
  root := .directory [("j", .directory [("release", .file release),
    ("lib", .directory [("modules", .file .empty)])])]
  workingPlace := []
  wellFormed := by
    simp only [Node.WellFormed, EntriesWellFormed, List.mem_singleton, forall_eq, List.not_mem_nil,
      false_implies, implies_true, and_true]
    decide

theorem reordered_kitWithRelease {release other : ByteArray} (h : SameContent release other) :
    (kitWithRelease release).Reordered (kitWithRelease other) := by
  refine ⟨rfl, rfl, .singleton (.of_valueAt? fun name => ?_) "j"⟩
  unfold Text.valueAt?
  by_cases hname : "release" = name
  · rw [if_pos hname, if_pos hname]
    exact .some (.of_sameContent h)
  · rw [if_neg hname, if_neg hname]
    cases Text.valueAt? name [("lib", Node.directory [("modules", .file .empty)])] with
    | none => exact .none
    | some node => exact .some (.refl node)

/-- Two entries that both state a version. With their lengths and checksums, all bytes of their archive are
    those of a text. -/
def statedVersions : List (String × String) :=
  [("a", " \nJAVA_VERSION=8\n#\n"), ("b", "\n\nJAVA_VERSION=17\n \n")]

/-- The version of a kit changes with the order of the entries of an archive that is read as its release
    file: the first line that states a version comes from another entry. -/
theorem discover_changes_version :
    (kitWithRelease (storedArchive statedVersions)).Reordered
        (kitWithRelease (storedArchive statedVersions.reverse)) ∧
      JdkSearch.discover ⟨none, ["/j"]⟩ (kitWithRelease (storedArchive statedVersions)) =
        some ⟨"/j", some "8", ["/j/lib/modules"]⟩ ∧
      JdkSearch.discover ⟨none, ["/j"]⟩ (kitWithRelease (storedArchive statedVersions.reverse)) =
        some ⟨"/j", some "17", ["/j/lib/modules"]⟩ := by
  -- as archives the two release files list the same entries; as texts they begin with another one
  have hnames : Archive.entryNames? (storedArchive statedVersions) = some ["a", "b"] := by
    decide +kernel
  have hnames' : Archive.entryNames? (storedArchive statedVersions.reverse) = some ["b", "a"] := by
    decide +kernel
  exact ⟨reordered_kitWithRelease (.archives hnames hnames' (List.Perm.swap _ _ _)),
    by decide +kernel, by decide +kernel⟩

end QualifierDiscovery
