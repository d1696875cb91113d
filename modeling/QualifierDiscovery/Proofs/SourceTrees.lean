import QualifierDiscovery.Proofs.ExternalLoading
import QualifierDiscovery.Proofs.Files.Walk

/-!
# `Proofs.SourceTrees` — where the source file of an accepted class lies

A class is named after the file that gives it: the directories on the way, and the file's own name without
the source suffix, with dots in between. The name can be read back as a path, a directory for each
dot. That path is the file's own exactly if no directory and no stem has a dot (`joinAll_eq_sourcePath_iff`).

## Contents
- **Candidates.** `Layout.Gives` and `candidateName?_eq_some_iff` — what a file is taken for;
  `candidateName?_joinAll_eq_some_iff` — the same for names below the root.
- **Source paths.** `sourcePath` and `Undotted`; for a qualified name the path is always that of undotted
  names (`exists_undotted`).
- **Loading from a directory.** `exists_file_of_mem_names` — each accepted name has a file;
  `loadDirectory_mirrors_iff` — when the names mirror the tree.
-/

namespace QualifierDiscovery

variable {layout : Layout} {root name : String} {names : List String}

/-! ## Candidates -/

theorem normalNames?_map_normal (names : List String) :
    normalNames? (names.map .normal) = some names := by
  induction names with
  | nil => rfl
  | cons name rest ih =>
    rw [List.map_cons, normalNames?, ih]
    rfl

theorem normalNames?_eq_some_iff {components : List Path.Component} :
    normalNames? components = some names ↔ components = names.map .normal := by
  constructor
  · intro h
    induction components generalizing names with
    | nil =>
      obtain rfl := Option.some.inj h
      rfl
    | cons component rest ih =>
      cases component with
      | normal name =>
        rw [normalNames?, Option.map_eq_some_iff] at h
        obtain ⟨others, hothers, rfl⟩ := h
        rw [ih hothers, List.map_cons]
      | root => exact absurd h (by simp [normalNames?])
      | current => exact absurd h (by simp [normalNames?])
      | parent => exact absurd h (by simp [normalNames?])
  · rintro rfl
    exact normalNames?_map_normal names

/-- The last of the names is that of a source file, which gives a class this name: the directories and the
    stem, with dots in between. -/
def Layout.Gives (layout : Layout) (names : List String) (name : String) : Prop :=
  ∃ dirs stem, names = dirs ++ [stem ++ layout.sourceSuffix] ∧ stem ≠ "" ∧
    name = Text.join '.' (dirs ++ [stem])

/-- **What a file is taken for**: its components follow those of the root, they are all names, and they give
    the class its name. -/
theorem candidateName?_eq_some_iff {file : String} :
    candidateName? layout root file = some name ↔
      ∃ names, Path.components file = Path.components root ++ names.map .normal ∧
        layout.Gives names name := by
  unfold candidateName? Path.relativeTo?
  simp only [Option.bind_eq_bind, Option.bind_eq_some_iff, List.isPrefixOf?_eq_some_iff_append_eq,
    normalNames?_eq_some_iff, Layout.sourceStem?, Layout.stem?_eq_some_iff, Option.some.injEq]
  constructor
  · rintro ⟨_, hcomponents, names, rfl, fileName, hlast, stem, ⟨rfl, hstem⟩, hname⟩
    obtain ⟨dirs, rfl⟩ := List.getLast?_eq_some_iff.mp hlast
    rw [List.dropLast_concat] at hname
    exact ⟨_, hcomponents.symm, dirs, stem, rfl, hstem, hname.symm⟩
  · rintro ⟨names, hcomponents, dirs, stem, rfl, hstem, rfl⟩
    exact ⟨_, hcomponents.symm, _, rfl, _, List.getLast?_concat, stem, ⟨rfl, hstem⟩,
      by rw [List.dropLast_concat]⟩

/-- What a file below the root is taken for: its directories and its stem, with dots in between. -/
theorem candidateName?_joinAll_eq_some_iff (hroot : root ≠ "")
    (hnames : ∀ name ∈ names, isEntryName name = true) :
    candidateName? layout root (Path.joinAll root names) = some name ↔
      ∃ dirs stem, names = dirs ++ [stem ++ layout.sourceSuffix] ∧ stem ≠ "" ∧
        name = Text.join '.' (dirs ++ [stem]) := by
  rw [candidateName?_eq_some_iff, Path.components_joinAll hroot hnames]
  constructor
  · rintro ⟨others, hsame, hgives⟩
    obtain rfl := Path.names_eq_of_append_map_normal_eq hsame
    exact hgives
  · exact fun hgives => ⟨names, rfl, hgives⟩

/-! ## Source paths -/

/-- The path of a class's source file below the root of a source tree: a directory for each dot. -/
def Layout.sourcePath (layout : Layout) (root name : String) : String :=
  Path.join root (Text.replaceChar '.' '/' name ++ layout.sourceSuffix)

/-- No directory on the way to a source file, nor the file's name before the suffix, has a dot. -/
def Layout.Undotted (layout : Layout) (names : List String) : Prop :=
  ∃ dirs stem, names = dirs ++ [stem ++ layout.sourceSuffix] ∧
    ∀ piece ∈ dirs ++ [stem], '.' ∉ piece.toList

theorem Layout.Undotted.ne_nil (h : layout.Undotted names) : names ≠ [] := by
  obtain ⟨dirs, stem, rfl, -⟩ := h
  simp

/-- A file name is cut at the suffix in one way only. -/
theorem Layout.undotted_concat_iff {dirs : List String} {stem : String} :
    layout.Undotted (dirs ++ [stem ++ layout.sourceSuffix]) ↔
      ∀ piece ∈ dirs ++ [stem], '.' ∉ piece.toList := by
  refine ⟨?_, fun hdots => ⟨dirs, stem, rfl, hdots⟩⟩
  rintro ⟨dirs', stem', hsame, hdots⟩
  obtain ⟨rfl, hfile⟩ := List.append_inj' hsame rfl
  obtain rfl : stem = stem' := String.append_left_inj _ |>.mp (List.singleton_inj.mp hfile)
  exact hdots

/-- An identifier can stand for the stem of a file's name: its first character tells the name from the empty
    one and from dots. -/
theorem isName_append {ending : String} (h : Name.isIdentifier name = true)
    (hending : '/' ∉ ending.toList) : Path.IsName (name ++ ending) := by
  obtain ⟨first, rest, hchars⟩ :=
    List.exists_cons_of_ne_nil fun hnil => Name.ne_empty_of_isIdentifier h (String.toList_eq_nil_iff.mp hnil)
  have hdot : first ≠ '.' := by
    rintro rfl
    exact Name.notMem_of_isIdentifier h (by decide) (hchars ▸ List.mem_cons_self)
  have hne : ∀ text : String, text.toList.head? ≠ some first → name ++ ending ≠ text := by
    rintro _ hhead rfl
    rw [String.toList_append, hchars] at hhead
    exact hhead rfl
  refine ⟨hne "" (by simp), hne "." ?_, hne ".." ?_, ?_⟩
  · exact fun hfirst => hdot (Option.some.inj hfirst).symm
  · exact fun hfirst => hdot (Option.some.inj hfirst).symm
  · rw [String.toList_append, List.mem_append, not_or]
    exact ⟨Name.notMem_of_isIdentifier h (by decide), hending⟩

theorem isEntryName_append {stem ending : String} (h : Name.isIdentifier name = true)
    (hfile : isEntryName (stem ++ ending) = true) : isEntryName (name ++ ending) = true := by
  obtain ⟨-, -, -, hslash, hnul⟩ := isEntryName_iff.mp hfile
  rw [String.toList_append, List.mem_append, not_or] at hslash hnul
  refine Path.isEntryName_iff_isName.mpr ⟨isName_append h hslash.2, ?_⟩
  rw [String.toList_append, List.mem_append, not_or]
  exact ⟨Name.notMem_of_isIdentifier h (by decide), hnul.2⟩

/-- Without dots, the path that the name stands for is the file's own. -/
theorem sourcePath_join {dirs : List String} {stem : String} (hroot : root ≠ "")
    (hnames : ∀ name ∈ dirs ++ [stem ++ layout.sourceSuffix], isEntryName name = true)
    (hdots : ∀ piece ∈ dirs ++ [stem], '.' ∉ piece.toList) :
    layout.sourcePath root (Text.join '.' (dirs ++ [stem])) =
      Path.joinAll root (dirs ++ [stem ++ layout.sourceSuffix]) := by
  rw [Layout.sourcePath, Text.replaceChar_join hdots, ← Text.join_concat_append,
    Path.joinAll_eq_join hroot (by simp) hnames]

/-- A qualified name stands for a path of its own, without dots in its names, if any file has the source
    suffix. -/
theorem exists_undotted {stem : String} (hroot : root ≠ "") (hname : Name.isQualified name = true)
    (hfile : isEntryName (stem ++ layout.sourceSuffix) = true) :
    ∃ names, layout.Undotted names ∧ (∀ name ∈ names, isEntryName name = true) ∧
      layout.sourcePath root name = Path.joinAll root names ∧
      candidateName? layout root (Path.joinAll root names) = some name := by
  obtain ⟨dirs, last, hidentifiers, hjoin⟩ := Name.exists_identifiers hname
  have hdots : ∀ piece ∈ dirs ++ [last], '.' ∉ piece.toList :=
    fun piece hpiece => Name.notMem_of_isIdentifier (hidentifiers piece hpiece) (by decide)
  have hlast := hidentifiers last (by simp)
  have hnames : ∀ name ∈ dirs ++ [last ++ layout.sourceSuffix], isEntryName name = true := by
    intro other hother
    rcases List.mem_append.mp hother with hdir | hfileName
    · exact isEntryName_of_isIdentifier (hidentifiers other (List.mem_append_left _ hdir))
    · rw [List.mem_singleton.mp hfileName]
      exact isEntryName_append hlast hfile
  refine ⟨_, ⟨dirs, last, rfl, hdots⟩, hnames, ?_, ?_⟩
  · rw [hjoin]
    exact sourcePath_join hroot hnames hdots
  · exact (candidateName?_joinAll_eq_some_iff hroot hnames).mpr
      ⟨dirs, last, rfl, Name.ne_empty_of_isIdentifier hlast, hjoin⟩

/-- **A file lies where its class's name says exactly if no name on the way to it has a dot.** -/
theorem joinAll_eq_sourcePath_iff (hroot : root ≠ "")
    (hnames : ∀ name ∈ names, isEntryName name = true) (hname : Name.isQualified name = true)
    (hcandidate : candidateName? layout root (Path.joinAll root names) = some name) :
    Path.joinAll root names = layout.sourcePath root name ↔ layout.Undotted names := by
  obtain ⟨dirs, stem, rfl, -, hjoin⟩ :=
    (candidateName?_joinAll_eq_some_iff hroot hnames).mp hcandidate
  constructor
  · intro hpath
    -- the path that the name stands for is that of its segments, and a path has only one list of names
    obtain ⟨others, hundotted, hothers, hsource, -⟩ :=
      exists_undotted hroot hname (hnames (stem ++ layout.sourceSuffix) (by simp))
    rw [hsource] at hpath
    exact Path.joinAll_injective hroot hnames hothers hpath ▸ hundotted
  · intro hundotted
    rw [hjoin]
    exact (sourcePath_join hroot hnames (Layout.undotted_concat_iff.mp hundotted)).symm

/-! ## Loading from a directory -/

section Loading

variable {setup : LoaderSetup} {fs files : FileSystem} {loader : Loader} {path : String}
  {set : QualifierSet}

/-- A name that is accepted over a registry is qualified, and some file below the directory gives it. -/
theorem exists_file_of_mem_names {registry : Registry}
    (hbuilds : setup.Builds fs registry.resolve loader)
    (hload : (loader.loadDirectory files path).1 = .ok set) (hname : name ∈ set.names) :
    Name.isQualified name = true ∧ ∃ names ∈ files.filesBelow path,
      candidateName? loader.config.layout path (Path.joinAll path names) = some name := by
  obtain ⟨hexternal, d, hqualifies⟩ :=
    (Loader.mem_names_of_loadDirectory_iff (hbuilds.keyed registry.resolve_keyed)
      (hbuilds.settled registry.resolve_keyed) hload).mp hname
  have hresolved := hqualifies.resolved
  rw [hbuilds.validator_eq] at hresolved
  exact ⟨Registry.isQualified_of_resolve hresolved, List.mem_filterMap.mp hexternal⟩

/-- **When what is accepted mirrors the tree.** A name that is accepted from a directory comes from some file
    below it. The path that the name stands for is a file exactly if some file gives the name without a
    dot in the names that lead to it. And no name is accepted for a file lying anywhere else exactly if
    no accepted file has a dot in the names that lead to it. -/
theorem loadDirectory_mirrors_iff {registry : Registry}
    (hresolver : setup.resolver = some registry.resolve)
    (hbuild : (setup.build fs).1 = .ok loader)
    (hload : (loader.loadDirectory files path).1 = .ok set) :
    (∀ name ∈ set.names, ∃ names ∈ files.filesBelow path, files.IsFileBelow path names ∧
        candidateName? loader.config.layout path (Path.joinAll path names) = some name) ∧
    (∀ name ∈ set.names,
      files.isFile (loader.config.layout.sourcePath path name) = true ↔
        ∃ names, files.IsFileBelow path names ∧ loader.config.layout.Undotted names ∧
          candidateName? loader.config.layout path (Path.joinAll path names) = some name) ∧
    ((∀ name ∈ set.names, ∀ names ∈ files.filesBelow path,
        candidateName? loader.config.layout path (Path.joinAll path names) = some name →
          Path.joinAll path names = loader.config.layout.sourcePath path name) ↔
      ∀ name ∈ set.names, ∀ names ∈ files.filesBelow path,
        candidateName? loader.config.layout path (Path.joinAll path names) = some name →
          loader.config.layout.Undotted names) := by
  have hbuilds := LoaderSetup.builds_of_build hresolver hbuild
  refine ⟨fun name hname => ?_, fun name hname => ?_, ?_⟩
  · obtain ⟨-, names, hnames, hcandidate⟩ := exists_file_of_mem_names hbuilds hload hname
    exact ⟨names, hnames, FileSystem.isFileBelow_of_mem_filesBelow hnames, hcandidate⟩
  · obtain ⟨hqualified, given, hgiven, hcandidate⟩ := exists_file_of_mem_names hbuilds hload hname
    have hroot := FileSystem.start_ne_empty_of_mem_filesBelow hgiven
    constructor
    · intro hfile
      have hentryNames := (FileSystem.isFileBelow_of_mem_filesBelow hgiven).entryNames
      obtain ⟨dirs, stem, rfl, -, -⟩ :=
        (candidateName?_joinAll_eq_some_iff hroot hentryNames).mp hcandidate
      obtain ⟨names, hundotted, hnames, hsource, hsame⟩ := exists_undotted hroot hqualified
        (hentryNames (stem ++ loader.config.layout.sourceSuffix) (by simp))
      rw [hsource] at hfile
      exact ⟨names, ⟨hundotted.ne_nil, hnames, hfile⟩, hundotted, hsame⟩
    · rintro ⟨names, hfile, hundotted, hsame⟩
      rw [← (joinAll_eq_sourcePath_iff hroot hfile.entryNames hqualified hsame).mpr hundotted]
      exact hfile.isFile
  · refine forall₂_congr fun name hname => forall₂_congr fun names hnames => ?_
    have hqualified := (exists_file_of_mem_names hbuilds hload hname).1
    exact forall_congr' fun hcandidate => joinAll_eq_sourcePath_iff
      (FileSystem.start_ne_empty_of_mem_filesBelow hnames)
      (FileSystem.isFileBelow_of_mem_filesBelow hnames).entryNames hqualified hcandidate

/-- A file at the root whose name has a dot before the suffix is taken for a class of a package, whose own
    directory is not there. -/
theorem loadDirectory_accepts_dotted_file :
    ∃ loader, ((LoaderSetup.oneQualifier "a.B" (by decide)).build
        (oneSource "a.B.java" (by decide))).1 = .ok loader ∧
      (loader.loadDirectory (oneSource "a.B.java" (by decide)) "/src").1.toOption.map
        QualifierSet.names = some ["a.B"] ∧
      loader.config.layout.sourcePath "/src" "a.B" = "/src/a/B.java" ∧
      (oneSource "a.B.java" (by decide)).isFile "/src/a/B.java" = false :=
  ⟨_, rfl, by decide +kernel, by decide, rfl⟩

theorem loadDirectory_mirrors_oneSource :
    ∃ loader set, ((LoaderSetup.oneQualifier "B" (by decide)).build
        (oneSource "B.java" (by decide))).1 = .ok loader ∧
      (loader.loadDirectory (oneSource "B.java" (by decide)) "/src").1 = .ok set ∧
      ∀ name ∈ set.names, ∃ names ∈ (oneSource "B.java" (by decide)).filesBelow "/src",
        (oneSource "B.java" (by decide)).IsFileBelow "/src" names ∧
          candidateName? loader.config.layout "/src" (Path.joinAll "/src" names) = some name := by
  have hloads : ∃ loader, ((LoaderSetup.oneQualifier "B" (by decide)).build
        (oneSource "B.java" (by decide))).1 = .ok loader ∧
      (loader.loadDirectory (oneSource "B.java" (by decide)) "/src").1.isOk = true :=
    ⟨_, rfl, by decide +kernel⟩
  obtain ⟨loader, hbuild, hok⟩ := hloads
  cases hload : (loader.loadDirectory (oneSource "B.java" (by decide)) "/src").1 with
  | error failure =>
    rw [hload] at hok
    exact absurd hok (by simp [Except.isOk, Except.toBool])
  | ok set => exact ⟨loader, set, hbuild, hload, (loadDirectory_mirrors_iff rfl hbuild hload).1⟩

end Loading

end QualifierDiscovery
