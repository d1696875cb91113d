import QualifierDiscovery.Candidates.Bundled
import QualifierDiscovery.Proofs.Files.Resolution
import QualifierDiscovery.Proofs.Names
import QualifierDiscovery.Proofs.Text.Order

/-!
# `Proofs.Locating` — what the search for a package finds

The search takes the first entry that holds the package (`locateAmong_eq_findSome?`). What it finds is an
archive that was read or a directory that was reached. A directory is reached segment by segment; this comes
to whether the whole path leads to a directory and every directory above it can be listed
(`packageDirectory?_eq_some_iff_leadsDown`). The last directory is reached without being listed, so
it may still refuse (`Location.Closed`); no other location that is found does (`bundledNames_locate`).
-/

namespace QualifierDiscovery

/-- A file's name has a stem if it goes on before the suffix; the two together are the name. -/
theorem Layout.stem?_eq_some_iff {suffix fileName stem : String} :
    Layout.stem? suffix fileName = some stem ↔ fileName = stem ++ suffix ∧ stem ≠ "" := by
  unfold Layout.stem?
  rw [Option.filter_eq_some_iff, Text.stripEnd?_eq_some_iff]
  simp

variable {fs : FileSystem} {layout : Layout} {package : Package}

/-! ## Archives -/

theorem archiveHolds_iff {path : String} :
    archiveHolds fs package path = true ↔
      ∃ names, archiveNames fs path = .ok names ∧
        ∃ name ∈ names, Text.startsWith package.entryStart name = true := by
  unfold archiveHolds
  cases archiveNames fs path with
  | error fault => simp
  | ok names => simp

theorem archiveNames_eq_ok_iff {path : String} {names : List String} :
    archiveNames fs path = .ok names ↔
      ∃ content, fs.readFile path = .ok content ∧ Archive.entryNames? content = some names := by
  unfold archiveNames
  cases fs.readFile path with
  | error cause => simp
  | ok content =>
    cases hnames : Archive.entryNames? content with
    | none => simp [hnames]
    | some found => simp [hnames]

/-! ## Directories -/

theorem childDirectory?_eq_some_iff {path name child : String} :
    childDirectory? fs path name = some child ↔
      child = Path.join path name ∧ fs.isDirectory (Path.join path name) = true ∧
        ∃ names, fs.listDirectory path = .ok names ∧ name ∈ names := by
  unfold childDirectory?
  cases fs.listDirectory path with
  | error cause => simp
  | ok names =>
    by_cases hmem : name ∈ names <;>
      by_cases hdirectory : fs.isDirectory (Path.join path name) = true <;>
        simp [hmem, hdirectory, eq_comm]

/-- The test for a subdirectory comes to whether the directory can be listed and the longer path leads to a
    directory: a name that leads on is listed. -/
theorem childDirectory?_eq_some_iff_listable {path name child : String}
    (hname : isEntryName name = true) :
    childDirectory? fs path name = some child ↔
      child = Path.join path name ∧ fs.Listable path ∧ fs.isDirectory (Path.join path name) = true := by
  rw [childDirectory?_eq_some_iff]
  constructor
  · rintro ⟨hchild, hdirectory, names, hnames, -⟩
    exact ⟨hchild, ⟨names, hnames⟩, hdirectory⟩
  · rintro ⟨hchild, hlistable, hdirectory⟩
    obtain ⟨place, entries, hresolve, hlist⟩ := FileSystem.listable_iff.mp hlistable
    obtain ⟨there, below, hjoin⟩ := FileSystem.isDirectory_iff.mp hdirectory
    obtain ⟨node, hmem⟩ := FileSystem.exists_mem_of_resolve_join hresolve hname hjoin
    exact ⟨hchild, hdirectory, _, FileSystem.listDirectory_eq hresolve hlist,
      List.mem_map.mpr ⟨_, hmem, rfl⟩⟩

/-- Names lead down from a path to a directory, through directories that can be listed. The last one need
    not be. -/
structure FileSystem.LeadsDown (fs : FileSystem) (path : String) (names : List String) : Prop where
  isDirectory : fs.isDirectory (Path.joinAll path names) = true
  listable : ∀ front, front <+: names → front ≠ names → fs.Listable (Path.joinAll path front)

theorem FileSystem.leadsDown_nil_iff {path : String} :
    fs.LeadsDown path [] ↔ fs.isDirectory path = true :=
  ⟨fun h => h.isDirectory, fun h => ⟨h, fun _ hfront hne => absurd (List.prefix_nil.mp hfront) hne⟩⟩

/-- One name more at the front is one more directory that can be listed. -/
theorem FileSystem.leadsDown_cons_iff {path name : String} {names : List String} :
    fs.LeadsDown path (name :: names) ↔ fs.Listable path ∧ fs.LeadsDown (Path.join path name) names := by
  constructor
  · intro h
    refine ⟨h.listable [] List.nil_prefix (by simp), h.isDirectory, fun front hfront hne => ?_⟩
    exact h.listable (name :: front) (List.cons_prefix_cons.mpr ⟨rfl, hfront⟩) (by simpa using hne)
  · rintro ⟨hpath, hbelow⟩
    refine ⟨hbelow.isDirectory, fun front hfront hne => ?_⟩
    cases front with
    | nil => exact hpath
    | cons first front =>
      obtain ⟨rfl, hrest⟩ := List.cons_prefix_cons.mp hfront
      exact hbelow.listable front hrest (by simpa using hne)

/-- All names on the way down lead to directories. -/
theorem FileSystem.LeadsDown.isDirectory_of_isPrefix {path : String} {front names : List String}
    (h : fs.LeadsDown path names) (hfront : front <+: names) :
    fs.isDirectory (Path.joinAll path front) = true := by
  by_cases hsame : front = names
  · exact hsame ▸ h.isDirectory
  · exact (h.listable front hfront hsame).isDirectory

/-- Where no directory refuses to be listed, it is enough that all of them are there. -/
theorem FileSystem.leadsDown_iff_forall {path : String} {names : List String} (hclosed : fs.closed = []) :
    fs.LeadsDown path names ↔
      ∀ front, front <+: names → fs.isDirectory (Path.joinAll path front) = true := by
  refine ⟨fun h front => h.isDirectory_of_isPrefix, fun h => ⟨h names (List.prefix_refl _), ?_⟩⟩
  intro front hfront _
  exact (FileSystem.listable_iff_isDirectory hclosed).mpr (h front hfront)

/-- **Going down lists every directory but the last.** By induction over the segments: each one asks for the
    directory that the path down to it leads to. -/
theorem descend_eq_some_iff_leadsDown {path found : String} {segments : List String}
    (hpath : fs.isDirectory path = true)
    (hsegments : ∀ segment ∈ segments, isEntryName segment = true) :
    descend fs path segments = some found ↔
      found = Path.joinAll path segments ∧ fs.LeadsDown path segments := by
  induction segments generalizing path with
  | nil =>
    rw [descend, Option.some.injEq, FileSystem.leadsDown_nil_iff]
    exact ⟨fun h => ⟨h.symm, hpath⟩, fun h => h.1.symm⟩
  | cons segment rest ih =>
    have hsegment := hsegments segment List.mem_cons_self
    rw [descend, FileSystem.leadsDown_cons_iff]
    cases hchild : childDirectory? fs path segment with
    | some child =>
      obtain ⟨rfl, hlistable, hbelow⟩ := (childDirectory?_eq_some_iff_listable hsegment).mp hchild
      rw [and_iff_right hlistable]
      exact ih hbelow fun other hother => hsegments other (List.mem_cons_of_mem _ hother)
    | none =>
      -- the way down ends here, and one of the conditions fails for this segment
      refine iff_of_false (by simp) ?_
      rintro ⟨-, hlistable, hdown⟩
      have hbelow := hdown.isDirectory_of_isPrefix List.nil_prefix
      have hsome := (childDirectory?_eq_some_iff_listable hsegment).mpr ⟨rfl, hlistable, hbelow⟩
      rw [hchild] at hsome
      exact absurd hsome (by simp)

section Descending

variable {path : String} {place : Place} {entries : List (String × Node)}

theorem childDirectory?_of_mem {name : String} {below : List (String × Node)}
    (h : fs.resolve path = .ok (.present place (.directory entries))) (hlist : fs.canList place = true)
    (hmem : (name, .directory below) ∈ entries) :
    childDirectory? fs path name = some (Path.join path name) := by
  have hresolve := FileSystem.resolve_join h hmem (by simp)
  exact childDirectory?_eq_some_iff.mpr ⟨rfl, FileSystem.isDirectory_iff.mpr ⟨_, _, hresolve⟩,
    _, FileSystem.listDirectory_eq h hlist, List.mem_map.mpr ⟨_, hmem, rfl⟩⟩

/-- Without links, what is entered is an entry that is a directory. -/
theorem exists_mem_of_childDirectory? {name child : String}
    (h : fs.resolve path = .ok (.present place (.directory entries)))
    (hfree : (Node.directory entries).LinkFree)
    (hchild : childDirectory? fs path name = some child) :
    ∃ below, (name, .directory below) ∈ entries := by
  obtain ⟨-, hdirectory, names, hnames, hname⟩ := childDirectory?_eq_some_iff.mp hchild
  have hlist := (FileSystem.listable_iff_canList h).mp ⟨names, hnames⟩
  rw [FileSystem.listDirectory_eq h hlist, Except.ok.injEq] at hnames
  rw [← hnames] at hname
  obtain ⟨⟨name, node⟩, hmem, rfl⟩ := List.mem_map.mp hname
  have hnode := hfree.of_mem (FileSystem.wellFormed_of_resolve h) hmem
  have hresolve := FileSystem.resolve_join h hmem hnode.ne_link
  obtain ⟨there, below, hbelow⟩ := FileSystem.isDirectory_iff.mp hdirectory
  rw [hresolve, Except.ok.injEq, Target.present.injEq] at hbelow
  exact ⟨below, hbelow.2 ▸ hmem⟩

/-- Every directory of a tree can be listed at the names that lead to it from a path. -/
def FileSystem.ListsTree (fs : FileSystem) (path : String) (tree : Node) : Prop :=
  ∀ names entries, tree.at? names = some (.directory entries) → fs.Listable (Path.joinAll path names)

theorem FileSystem.ListsTree.of_valueAt? {name : String} {child : Node}
    (h : fs.ListsTree path (.directory entries)) (hchild : Text.valueAt? name entries = some child) :
    fs.ListsTree (Path.join path name) child := by
  intro names below hbelow
  have hat : (Node.directory entries).at? (name :: names) = some (.directory below) := by
    rw [Node.at?_directory_cons, hchild]
    exact hbelow
  exact h _ _ hat

/-- Where no directory refuses to be listed, a tree without links can be listed. -/
theorem FileSystem.listsTree_of_linkFree (h : fs.resolve path = .ok (.present place (.directory entries)))
    (hfree : (Node.directory entries).LinkFree) (hclosed : fs.closed = []) :
    fs.ListsTree path (.directory entries) := by
  intro names below hbelow
  rw [FileSystem.listable_iff_isDirectory hclosed, FileSystem.isDirectory_iff]
  exact ⟨_, below, FileSystem.resolve_joinAll h hfree hbelow⟩

/-- **Going down is following the names**: in a directory without links, the segments lead to a directory
    exactly if they do so in the tree. By induction over the segments, each of them one step of
    `resolve_join`. -/
theorem descend_eq_some_iff {found : String} {segments : List String}
    (h : fs.resolve path = .ok (.present place (.directory entries)))
    (hfree : (Node.directory entries).LinkFree) (hlists : fs.ListsTree path (.directory entries)) :
    descend fs path segments = some found ↔
      found = Path.joinAll path segments ∧
        ∃ below, (Node.directory entries).at? segments = some (.directory below) := by
  induction segments generalizing path place entries with
  | nil =>
    rw [descend, Option.some.injEq]
    constructor
    · rintro rfl
      exact ⟨rfl, entries, rfl⟩
    · exact fun hfound => hfound.1.symm
  | cons segment rest ih =>
    have hwf := FileSystem.wellFormed_of_resolve h
    rw [Node.at?_directory_cons]
    by_cases hentry : ∃ below, (segment, .directory below) ∈ entries
    · obtain ⟨below, hmem⟩ := hentry
      have hat := (valueAt?_eq_some_iff hwf).mpr hmem
      have hlist := (FileSystem.listable_iff_canList h).mp (hlists [] entries rfl)
      rw [descend, childDirectory?_of_mem h hlist hmem, hat, Option.bind_some]
      exact ih (FileSystem.resolve_join h hmem (by simp)) (hfree.of_mem hwf hmem) (hlists.of_valueAt? hat)
    · -- neither goes on: a file or nothing stands here, and names below it lead nowhere
      have hchild : childDirectory? fs path segment = none := by
        rw [Option.eq_none_iff_forall_ne_some]
        exact fun child hchild => hentry (exists_mem_of_childDirectory? h hfree hchild)
      rw [descend, hchild]
      refine iff_of_false (by simp) ?_
      rintro ⟨-, below, hbelow⟩
      obtain ⟨node, hnode, hat⟩ := Option.bind_eq_some_iff.mp hbelow
      obtain ⟨next, rfl⟩ := Node.exists_eq_directory hat
      exact hentry ⟨next, Text.mem_of_valueAt?_eq_some hnode⟩

end Descending

/-- **The directory of a package** is found exactly if the segments lead down to it. -/
theorem packageDirectory?_eq_some_iff_leadsDown {path found : String} :
    packageDirectory? fs package path = some found ↔
      found = Path.joinAll path package.segments ∧ fs.LeadsDown path package.segments := by
  unfold packageDirectory?
  by_cases hpath : fs.isDirectory path = true
  · rw [if_pos hpath]
    exact descend_eq_some_iff_leadsDown hpath fun _ => Package.isEntryName_of_mem_segments
  · rw [if_neg hpath]
    refine iff_of_false (by simp) ?_
    rintro ⟨-, hdown⟩
    exact hpath (hdown.isDirectory_of_isPrefix List.nil_prefix)

theorem isDirectory_of_packageDirectory? {path found : String}
    (h : packageDirectory? fs package path = some found) : fs.isDirectory found = true := by
  obtain ⟨rfl, hdown⟩ := packageDirectory?_eq_some_iff_leadsDown.mp h
  exact hdown.isDirectory

/-! ## The search -/

/-- The location that one entry gives, for an entry that has an absolute form. -/
theorem locateIn_eq {entry path : String} (h : Path.absolute? fs.workingDirectory entry = some path) :
    (locateIn fs layout package entry).1 =
      if layout.isArchive entry then
        if archiveHolds fs package path then some (.archive path) else none
      else (packageDirectory? fs package path).map .directory := by
  unfold locateIn
  rw [h]
  split <;> rfl

theorem locateIn_eq_none {entry : String} (h : Path.absolute? fs.workingDirectory entry = none) :
    (locateIn fs layout package entry).1 = none := by
  unfold locateIn
  rw [h]
  split <;> rfl

theorem locateAmong_eq_findSome? (entries : List String) :
    (locateAmong fs layout package entries).1 =
      entries.findSome? fun entry => (locateIn fs layout package entry).1 := by
  induction entries with
  | nil => rfl
  | cons entry rest ih =>
    rw [List.findSome?_cons, locateAmong]
    rcases locateIn fs layout package entry with ⟨_ | location, notes⟩
    · exact ih
    · rfl

theorem locate_singleton (fs : FileSystem) (layout : Layout) (package : Package) (entry : String) :
    (locate fs layout package (.ofList [entry])).1 = (locateIn fs layout package entry).1 := by
  have hentries : (SearchPath.ofList [entry]).entries = [entry] := rfl
  rw [locate, hentries, locateAmong_eq_findSome?, List.findSome?_singleton]

/-- The location is a directory that cannot be listed. -/
inductive Location.Closed (fs : FileSystem) : Location → Prop
  | directory {path : String} (hpath : fs.isDirectory path = true) (hlist : ¬ fs.Listable path) :
    Closed fs (.directory path)

theorem Location.Closed.bundledNames_eq {location : Location} (h : location.Closed fs) :
    bundledNames fs layout package (some location) = .error (.file .permissionDenied) := by
  obtain ⟨hpath, hlist⟩ := h
  rw [bundledNames, namesInDirectory, FileSystem.listDirectory_eq_error hpath hlist]

/-- What an entry gives can be listed, or is a directory that refuses. -/
theorem bundledNames_locateIn {entry : String} {location : Location}
    (h : (locateIn fs layout package entry).1 = some location) :
    (∃ names, bundledNames fs layout package (some location) = .ok names) ∨ location.Closed fs := by
  cases hpath : Path.absolute? fs.workingDirectory entry with
  | none =>
    rw [locateIn_eq_none hpath] at h
    exact absurd h (by simp)
  | some path =>
    rw [locateIn_eq hpath] at h
    split at h
    · split at h
      · next hholds =>
        obtain ⟨names, hnames, -⟩ := archiveHolds_iff.mp hholds
        cases h
        rw [bundledNames, namesInArchive, hnames]
        exact .inl ⟨_, rfl⟩
      · exact absurd h (by simp)
    · obtain ⟨found, hfound, rfl⟩ := Option.map_eq_some_iff.mp h
      by_cases hlist : fs.Listable found
      · obtain ⟨names, hnames⟩ := hlist
        rw [bundledNames, namesInDirectory, hnames]
        exact .inl ⟨_, rfl⟩
      · exact .inr (.directory (isDirectory_of_packageDirectory? hfound) hlist)

/-- **The candidates at the location that the search finds can be listed**, unless it is a directory that
    refuses. -/
theorem bundledNames_locate (fs : FileSystem) (layout : Layout) (package : Package)
    (path : SearchPath) :
    (∃ names, bundledNames fs layout package (locate fs layout package path).1 = .ok names) ∨
      ∃ location, (locate fs layout package path).1 = some location ∧ location.Closed fs := by
  cases h : (locate fs layout package path).1 with
  | none => exact .inl ⟨[], rfl⟩
  | some location =>
    unfold locate at h
    rw [locateAmong_eq_findSome?] at h
    obtain ⟨entry, -, hentry⟩ := List.exists_of_findSome?_eq_some h
    exact (bundledNames_locateIn hentry).imp_right fun hclosed => ⟨location, rfl, hclosed⟩

/-- Candidates are listed in increasing order, each one once. -/
theorem increasing_bundledNames {location : Option Location} {names : List String}
    (h : bundledNames fs layout package location = .ok names) :
    names.Pairwise fun a b => a < b := by
  match location with
  | none =>
    rw [bundledNames, Except.ok.injEq] at h
    exact h ▸ List.Pairwise.nil
  | some (.archive path) =>
    rw [bundledNames, namesInArchive] at h
    split at h
    · rw [← Except.ok.inj h]
      exact Text.increasing_sortedSet _
    · exact absurd h (by simp)
  | some (.directory path) =>
    rw [bundledNames, namesInDirectory] at h
    split at h
    · rw [← Except.ok.inj h]
      exact Text.increasing_sortedSet _
    · exact absurd h (by simp)

end QualifierDiscovery
