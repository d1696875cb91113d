import QualifierDiscovery.Proofs.FirstMatch
import QualifierDiscovery.Proofs.Url.DirectoryUrls

/-!
# `Proofs.LocationUrls` — a location's URL leads back to its directory

A search gives a directory by its path and by a URL. Where the URL is the only one that a class loader names,
the directory is all there is on the search path (`collect_directoryUrl`), whatever the names on the way to it
are. The names of the package are identifiers, so it depends on the entry alone whether the URL keeps the
path (`KeptByUrl`).
-/

namespace QualifierDiscovery

open QualifierDiscovery.Path (Spells IsName ofNames)

variable {fs : FileSystem} {layout : Layout} {package : Package} {path : SearchPath} {dir root : String}

/-- A URL keeps an absolute path: there is no double dot in it, it does not begin with two slashes, and its
    first name is not a letter and a bar. -/
structure KeptByUrl (path : String) : Prop where
  noParent : Path.Component.parent ∉ Path.components path
  oneSlash : Text.startsWith "//" path = false
  noDriveBar : ∀ first rest, Path.components path = .root :: .normal first :: rest → ¬ Url.IsDriveBar first

/-- A search of a path gives a directory for one of the entries, the first one that holds the package, and
    a URL keeps this entry's absolute form. -/
structure LocatedByUrl (fs : FileSystem) (layout : Layout) (package : Package) (path : SearchPath)
    (dir : String) : Prop where
  located : (locate fs layout package path).1 = some (.directory dir)
  entry : ∃ entry root, Reached fs layout package path.entries entry ∧ Holds fs layout package entry ∧
    Path.absolute? fs.workingDirectory entry = some root ∧ KeptByUrl root

/-! ## The names of a located directory -/

/-- The first of the names in a path that a URL keeps is not a letter and a bar. -/
theorem KeptByUrl.not_isDriveBar {names : List String} (h : KeptByUrl root) (hspells : Spells root names) :
    ∀ first ∈ names.head?, ¬ Url.IsDriveBar first := by
  intro first hfirst
  have hnames := hspells.isName_of_notMem h.noParent
  obtain ⟨rest, rfl⟩ : ∃ rest, names = first :: rest := ⟨names.tail, List.eq_cons_of_mem_head? hfirst⟩
  apply h.noDriveBar first
  rw [hspells.components_eq, List.map_cons, if_neg (hnames first List.mem_cons_self).2.2.1]

/-- No identifier is a letter and a bar. -/
theorem Package.not_isDriveBar_of_mem_segments {segment : String} (h : segment ∈ package.segments) :
    ¬ Url.IsDriveBar segment := by
  rintro ⟨letter, -, rfl⟩
  have hbar : '|' ∉ (String.ofList [letter, '|']).toList :=
    Name.notMem_of_isIdentifier (isIdentifier_of_mem_segments h) (by decide)
  simp at hbar

/-- **What stands on the way to a located directory** are names, the first of which is not a letter and a
    bar: those of the entry's absolute form and the segments of the package. -/
theorem LocatedByUrl.exists_names (h : LocatedByUrl fs layout package path dir) :
    ∃ names, names ≠ [] ∧ (∀ name ∈ names, IsName name) ∧
      (∀ first ∈ names.head?, ¬ Url.IsDriveBar first) ∧ dir = ofNames names := by
  obtain ⟨hlocated, entry, root, hreached, ⟨location, hholds⟩, hroot, hkept⟩ := h
  have hlocation : location = .directory dir :=
    Option.some.inj ((locate_eq_some_iff.mpr ⟨entry, hreached, hholds⟩).symm.trans hlocated)
  subst hlocation
  obtain ⟨front, hspells⟩ : ∃ front, Spells root front :=
    ⟨_, FileSystem.spells_of_absolute? hroot hkept.oneSlash⟩
  have hfront := hspells.isName_of_notMem hkept.noParent
  have hsegments : ∀ segment ∈ package.segments, IsName segment :=
    Path.isName_of_entryNames fun _ => Package.isEntryName_of_mem_segments
  have hne : front ++ package.segments ≠ [] :=
    List.append_ne_nil_of_right_ne_nil front Package.segments_ne_nil
  refine ⟨front ++ package.segments, hne, ?_, ?_, ?_⟩
  · exact fun name hname => (List.mem_append.mp hname).elim (hfront name) (hsegments name)
  · -- the entry is the root, or its absolute form has a first name
    cases front with
    | nil => exact fun first hfirst => Package.not_isDriveBar_of_mem_segments (List.mem_of_mem_head? hfirst)
    | cons first rest => exact fun _ hfirst => hkept.not_isDriveBar hspells _ hfirst
  · cases hholds with
    | directory _ hpath _ =>
      obtain rfl := Option.some.inj (hroot.symm.trans hpath)
      exact hspells.joinAll_eq Package.segments_ne_nil
        fun segment hsegment => (hsegments segment hsegment).isStep

/-! ## Reading the URL -/

/-- The URL of a located directory names the directory. -/
theorem LocatedByUrl.toPath?_url (h : LocatedByUrl fs layout package path dir) :
    Url.toPath? (Location.directory dir).url = some (dir ++ "/") := by
  obtain ⟨names, hne, hnames, hdrive, rfl⟩ := h.exists_names
  have hurl : (Location.directory (ofNames names)).url = String.ofList (Url.directoryText names) :=
    congrArg (Option.getD · "") (Url.ofDirectory?_ofNames hne hnames)
  rw [hurl, Url.toPath?_directoryText hne hnames hdrive]

/-- Where a single URL names a path and no list names any, this path is all that is collected. -/
theorem Collector.collect_single {collector : Collector} {url named : String}
    (hlisted : collector.sources.listed = []) (hurls : collector.loaderUrls = [url])
    (hurl : Url.toPath? url = some named) : collector.collect = (.ofList [named], []) := by
  have hunnamed : [url].filter (fun url => (Url.toPath? url).isNone) = [] :=
    List.filter_cons_of_neg (by simp [hurl])
  unfold collect
  rw [hlisted, hurls, List.filterMap_cons_some hurl, hunnamed]
  rfl

/-- **A location's URL leads back to its directory.** Whatever the names of the directories are, a host whose
    only entry is the URL of a located directory has this directory with a slash at its end on its search
    path, nothing else, and no note. So the URL tells the directory: two of them that were located, in any
    trees of files and for any packages, are the same if their URLs are. -/
theorem collect_directoryUrl (h : LocatedByUrl fs layout package path dir) :
    (∀ collector : Collector, collector.sources.listed = [] →
      collector.loaderUrls = [(Location.directory dir).url] →
        collector.collect.1.entries = [dir ++ "/"] ∧ collector.collect.2 = []) ∧
      ∀ {otherFs : FileSystem} {otherLayout : Layout} {otherPackage : Package} {otherPath : SearchPath}
        {other : String}, LocatedByUrl otherFs otherLayout otherPackage otherPath other →
          (Location.directory other).url = (Location.directory dir).url → other = dir := by
  constructor
  · intro collector hlisted hurls
    rw [Collector.collect_single hlisted hurls h.toPath?_url]
    exact ⟨rfl, rfl⟩
  · intro _ _ _ _ other hother hurl
    have hsame := hother.toPath?_url
    rw [hurl, h.toPath?_url, Option.some.injEq] at hsame
    apply String.toList_injective
    have hchars := congrArg String.toList hsame
    rw [String.toList_append, String.toList_append] at hchars
    exact (List.append_cancel_right hchars).symm

/-- A working directory whose names look like an escaped blank and like a fragment, and hold a line feed. -/
def awkwardNames : FileSystem where
  root := .directory [("50%20 é", .directory [("a#b?\\\n", .directory [("qual", .directory [])])])]
  workingPlace := ["50%20 é", "a#b?\\\n"]
  wellFormed := by
    simp only [Node.WellFormed, EntriesWellFormed, List.not_mem_nil, false_implies, implies_true, and_true]
    decide

theorem collect_directoryUrl_awkwardNames :
    LocatedByUrl awkwardNames .java ⟨"qual", by decide⟩ (.ofList ["."]) "/50%20 é/a#b?\\\n/qual" ∧
      (Location.directory "/50%20 é/a#b?\\\n/qual").url = "file:///50%2520%20%C3%A9/a%23b%3F%5C%0A/qual/" ∧
      (Collector.ofSources ⟨[], [], [], ["file:///50%2520%20%C3%A9/a%23b%3F%5C%0A/qual/"]⟩).collect.1.entries =
        ["/50%20 é/a#b?\\\n/qual/"] := by
  have hurl : (Location.directory "/50%20 é/a#b?\\\n/qual").url =
      "file:///50%2520%20%C3%A9/a%23b%3F%5C%0A/qual/" := by
    decide +kernel
  have hentry : (locateIn awkwardNames .java ⟨"qual", by decide⟩ ".").1 =
      some (.directory "/50%20 é/a#b?\\\n/qual") := by
    decide +kernel
  have hlocated : LocatedByUrl awkwardNames .java ⟨"qual", by decide⟩ (.ofList ["."])
      "/50%20 é/a#b?\\\n/qual" := by
    refine ⟨by decide +kernel, ".", "/50%20 é/a#b?\\\n",
      ⟨[], [], rfl, fun _ h => absurd h List.not_mem_nil⟩, ⟨_, locateIn_eq_some_iff.mp hentry⟩,
      by decide, by decide, by decide, ?_⟩
    rintro first rest hcomponents ⟨letter, -, rfl⟩
    have hfirst : Path.components "/50%20 é/a#b?\\\n" = [.root, .normal "50%20 é", .normal "a#b?\\\n"] := by
      decide
    rw [hfirst] at hcomponents
    obtain ⟨hname, -⟩ := List.cons.inj (List.cons.inj hcomponents).2
    have hlength : "50%20 é".toList.length = 2 := by
      rw [Path.Component.normal.inj hname, String.toList_ofList]
      rfl
    exact absurd hlength (by decide)
  obtain ⟨hcollected, -⟩ := collect_directoryUrl hlocated
  rw [hurl] at hcollected
  exact ⟨hlocated, hurl, (hcollected (.ofSources ⟨[], [], [], [_]⟩) rfl rfl).1⟩

end QualifierDiscovery
