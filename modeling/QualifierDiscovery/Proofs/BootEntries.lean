import QualifierDiscovery.Jdk
import QualifierDiscovery.Proofs.Files.AbsolutePaths
import QualifierDiscovery.Proofs.Locating
import QualifierDiscovery.Proofs.SearchPaths

/-!
# `Proofs.BootEntries` — the boot entries of a kit on the search path

Of what a development kit is booted from only the archive of the runtime can be searched
(`bootPath_of_ofRoot?`), and the locator takes it for an archive and opens it. On its way to the search path
the archive's path goes through a path list, which is cut at colons. So it arrives there unchanged exactly
if the directory of the kit has no colon in its path (`bootPath_collect`).

## Contents
- **Entries.** `Boots` — what a kit is booted from; `ofRoot?_eq_some_iff` — where there is a kit;
  `bootPath_of_ofRoot?` — what of it is searched.
- **Opening.** `exists_opens` — the archive is opened at the file that its path leads to.
- **Search paths.** `bootPath_collect` — the boot path of a kit on the search path.
-/

namespace QualifierDiscovery

/-! ## Entries -/

namespace FileSystem

variable {fs : FileSystem} {path : String} {passes : String → Bool} {names listed : List String}

/-- The names of those entries of a directory that pass a test, in increasing order. -/
structure ListsInOrder (fs : FileSystem) (path : String) (passes : String → Bool)
    (names : List String) : Prop where
  increasing : Text.IncreasingBy id names
  exists_listed : ∃ listed, fs.listDirectory path = .ok listed ∧
    ∀ name, name ∈ names ↔ name ∈ listed ∧ passes name = true

/-- Sorting a listing puts them in order. -/
theorem listsInOrder_sortedBy (h : fs.listDirectory path = .ok listed) (passes : String → Bool) :
    fs.ListsInOrder path passes (Text.sortedBy id (listed.filter passes)) := by
  have hdistinct : ((listed.filter passes).map id).Nodup := by
    rw [List.map_id]
    exact (nodup_of_listDirectory h).filter _
  exact ⟨Text.increasing_sortedBy hdistinct, listed, h,
    fun name => List.mem_mergeSort.trans List.mem_filter⟩

theorem ListsInOrder.exists_eq_sortedBy (h : fs.ListsInOrder path passes names) :
    ∃ listed, fs.listDirectory path = .ok listed ∧
      names = Text.sortedBy id (listed.filter passes) := by
  obtain ⟨listed, hlisted, hnames⟩ := h.exists_listed
  have hsorted := listsInOrder_sortedBy hlisted passes
  refine ⟨listed, hlisted, h.increasing.eq_of_mem_iff hsorted.increasing fun name => ?_⟩
  rw [hnames name, ← List.mem_filter]
  exact List.mem_mergeSort.symm

end FileSystem

namespace Jdk

variable {fs : FileSystem} {root place : String} {jdk : Jdk}

/-- The places of the runtime's archive below the directory of a kit. -/
inductive IsArchivePlace : String → Prop
  | inner : IsArchivePlace "jre/lib/rt.jar"
  | outer : IsArchivePlace "lib/rt.jar"

namespace IsArchivePlace

theorem isAbsolute_eq (h : IsArchivePlace place) : Path.isAbsolute place = false := by
  cases h <;> decide

theorem endsWith_jar (h : IsArchivePlace place) : Text.endsWith ".jar" place = true := by
  cases h <;> decide

theorem colon_notMem (h : IsArchivePlace place) : ':' ∉ place.toList := by
  cases h <;> decide

theorem mem_toList (h : IsArchivePlace place) : 'r' ∈ place.toList := by
  cases h <;> decide

theorem fileName?_join (h : IsArchivePlace place) (hroot : root ≠ "") :
    Path.fileName? (Path.join root place) = some "rt.jar" := by
  cases h with
  | inner =>
    have hnames : "jre/lib/rt.jar" = Text.join '/' (["jre", "lib"] ++ ["rt.jar"]) := by decide
    rw [hnames]
    exact Path.fileName?_join_names hroot (by decide)
  | outer =>
    have hnames : "lib/rt.jar" = Text.join '/' (["lib"] ++ ["rt.jar"]) := by decide
    rw [hnames]
    exact Path.fileName?_join_names hroot (by decide)

end IsArchivePlace

/-- **What a kit is booted from**: the modules file, or else the archive of the runtime in the first of its
    places where there is one, or else the module files in the order of their names, at least one. -/
inductive Boots (fs : FileSystem) (root : String) : List String → Prop
  | modules (hmodules : fs.isFile (Path.join root "lib/modules") = true) :
    Boots fs root [Path.join root "lib/modules"]
  | inner (hmodules : fs.isFile (Path.join root "lib/modules") = false)
    (hinner : fs.isFile (Path.join root "jre/lib/rt.jar") = true) :
    Boots fs root [Path.join root "jre/lib/rt.jar"]
  | outer (hmodules : fs.isFile (Path.join root "lib/modules") = false)
    (hinner : fs.isFile (Path.join root "jre/lib/rt.jar") = false)
    (houter : fs.isFile (Path.join root "lib/rt.jar") = true) :
    Boots fs root [Path.join root "lib/rt.jar"]
  | moduleFiles {names : List String} (hmodules : fs.isFile (Path.join root "lib/modules") = false)
    (hinner : fs.isFile (Path.join root "jre/lib/rt.jar") = false)
    (houter : fs.isFile (Path.join root "lib/rt.jar") = false)
    (hnames : fs.ListsInOrder (Path.join root "jmods") (Text.endsWith Layout.moduleSuffix) names)
    (hsome : names ≠ []) :
    Boots fs root (names.map (Path.join (Path.join root "jmods")))

theorem boots_of_bootEntries? {entries : List String} (h : bootEntries? fs root = some entries) :
    fs.isDirectory root = true ∧ Boots fs root entries := by
  unfold bootEntries? at h
  dsimp only at h
  split at h
  · exact absurd h (by simp)
  · next hroot =>
    refine ⟨by simpa using hroot, ?_⟩
    split at h
    · next hmodules => exact Option.some.inj h ▸ .modules hmodules
    · next hmodules =>
      rw [Bool.not_eq_true] at hmodules
      split at h
      · next hinner => exact Option.some.inj h ▸ .inner hmodules hinner
      · next hinner =>
        rw [Bool.not_eq_true] at hinner
        split at h
        · next houter => exact Option.some.inj h ▸ .outer hmodules hinner houter
        · next houter =>
          rw [Bool.not_eq_true] at houter
          split at h
          · exact absurd h (by simp)
          · next listed hlisted =>
            split at h
            · exact absurd h (by simp)
            · next hsome =>
              rw [List.isEmpty_iff] at hsome
              exact Option.some.inj h ▸ .moduleFiles hmodules hinner houter
                (FileSystem.listsInOrder_sortedBy hlisted _)
                fun hnil => hsome (Text.sortedBy_eq_nil_iff.mp hnil)

theorem Boots.bootEntries?_eq {entries : List String} (h : Boots fs root entries)
    (hroot : fs.isDirectory root = true) : bootEntries? fs root = some entries := by
  unfold bootEntries?
  cases h with
  | modules hmodules => simp [hroot, hmodules]
  | inner hmodules hinner => simp [hroot, hmodules, hinner]
  | outer hmodules hinner houter => simp [hroot, hmodules, hinner, houter]
  | moduleFiles hmodules hinner houter hnames hsome =>
    obtain ⟨listed, hlisted, rfl⟩ := hnames.exists_eq_sortedBy
    rw [ne_eq, Text.sortedBy_eq_nil_iff, ← List.isEmpty_iff, Bool.not_eq_true] at hsome
    simp [hroot, hmodules, hinner, houter, hlisted, hsome]

/-- **A kit is found exactly where there is something to boot from.** -/
theorem ofRoot?_eq_some_iff :
    ofRoot? fs root = some jdk ↔
      fs.isDirectory root = true ∧ Boots fs root jdk.bootEntries ∧ jdk.root = root ∧
        jdk.version? = versionOf? fs root := by
  unfold ofRoot?
  rw [Option.map_eq_some_iff]
  constructor
  · rintro ⟨entries, hentries, rfl⟩
    obtain ⟨hroot, hboots⟩ := boots_of_bootEntries? hentries
    exact ⟨hroot, hboots, rfl, rfl⟩
  · rintro ⟨hroot, hboots, rfl, hversion⟩
    refine ⟨jdk.bootEntries, hboots.bootEntries?_eq hroot, ?_⟩
    rw [← hversion]

/-- A module file is not taken for an archive. -/
theorem not_endsWith_jar_of_jmod {name : String} (h : Text.endsWith Layout.moduleSuffix name = true) :
    Text.endsWith ".jar" name = false := by
  rw [Bool.eq_false_iff]
  intro hjar
  have hlast := (Text.getLast?_of_endsWith h (by decide)).symm.trans
    (Text.getLast?_of_endsWith hjar (by decide))
  exact absurd hlast (by decide)

/-- The directory of a kit has a path. -/
theorem ne_empty_of_ofRoot? (h : ofRoot? fs root = some jdk) : root ≠ "" := by
  obtain ⟨_, _, hresolve⟩ := FileSystem.isDirectory_iff.mp (ofRoot?_eq_some_iff.mp h).1
  exact FileSystem.ne_empty_of_resolve hresolve

/-- **Only the archive of the runtime can be searched.** -/
theorem bootPath_of_ofRoot? (h : ofRoot? fs root = some jdk) :
    jdk.bootPath = [] ∨ ∃ place, IsArchivePlace place ∧ fs.isFile (Path.join root place) = true ∧
      jdk.bootPath = [Path.join root place] := by
  have hne := ne_empty_of_ofRoot? h
  obtain ⟨-, hboots, -⟩ := ofRoot?_eq_some_iff.mp h
  unfold bootPath
  generalize jdk.bootEntries = entries at hboots ⊢
  cases hboots with
  | modules hmodules =>
    -- the name of the modules file has no suffix
    left
    have hnames : "lib/modules" = Text.join '/' (["lib"] ++ ["modules"]) := by decide
    have hname : Path.fileName? (Path.join root "lib/modules") = some "modules" := by
      rw [hnames]
      exact Path.fileName?_join_names hne (by decide)
    rw [List.filter_cons_of_neg (by rw [hname]; decide), List.filter_nil]
  | inner hmodules hinner =>
    right
    refine ⟨_, .inner, hinner, ?_⟩
    rw [List.filter_cons_of_pos (by rw [IsArchivePlace.inner.fileName?_join hne]; decide),
      List.filter_nil]
  | outer hmodules hinner houter =>
    right
    refine ⟨_, .outer, houter, ?_⟩
    rw [List.filter_cons_of_pos (by rw [IsArchivePlace.outer.fileName?_join hne]; decide),
      List.filter_nil]
  | moduleFiles hmodules hinner houter hnames hsome =>
    -- every entry has the name of a module file
    left
    obtain ⟨listed, hlisted, hmem⟩ := hnames.exists_listed
    rw [List.filter_eq_nil_iff]
    intro entry hentry
    obtain ⟨name, hname, rfl⟩ := List.mem_map.mp hentry
    obtain ⟨hname, hmodule⟩ := (hmem name).mp hname
    have hbase : Path.join root "jmods" ≠ "" := Path.join_ne_empty hne (by decide)
    rw [Path.fileName?_join hbase (FileSystem.isEntryName_of_mem_listDirectory hlisted hname)]
    simpa using not_endsWith_jar_of_jmod hmodule

/-! ## Opening -/

/-- The archive of the runtime is taken for an archive by any layout that knows the suffix. -/
theorem IsArchivePlace.isArchive_join {layout : Layout} (h : IsArchivePlace place) (hroot : root ≠ "")
    (hsuffix : ".jar" ∈ layout.archiveSuffixes) : layout.isArchive (Path.join root place) = true :=
  List.any_eq_true.mpr ⟨".jar", hsuffix, Path.endsWith_join hroot h.isAbsolute_eq h.endsWith_jar⟩

theorem IsArchivePlace.not_endsWith_slash_join (h : IsArchivePlace place) (hroot : root ≠ "") :
    Text.endsWith "/" (Path.join root place) = false := by
  rw [Bool.eq_false_iff]
  intro hslash
  have hlast := (Text.getLast?_of_endsWith hslash (by decide)).symm.trans
    (Text.getLast?_of_endsWith (Path.endsWith_join hroot h.isAbsolute_eq h.endsWith_jar) (by decide))
  exact absurd hlast (by decide)

/-- **The archive of the runtime is opened where it is.** The search opens the absolute form of the entry,
    and that leads to the file to which the entry itself leads. -/
theorem exists_opens (hplace : IsArchivePlace place) (hroot : root ≠ "")
    (hfile : fs.isFile (Path.join root place) = true) :
    ∃ path content, Path.absolute? fs.workingDirectory (Path.join root place) = some path ∧
      fs.readFile (Path.join root place) = .ok content ∧ fs.readFile path = .ok content := by
  obtain ⟨_, content, hresolve, hcontent⟩ := FileSystem.exists_content_of_isFile hfile
  have hne := FileSystem.ne_empty_of_resolve hresolve
  obtain ⟨path, hpath⟩ :=
    Option.ne_none_iff_exists'.mp fun h => hne (Path.absolute?_eq_none_iff.mp h)
  have hfull := FileSystem.resolve_absolute? hresolve (hplace.not_endsWith_slash_join hroot) hpath
  refine ⟨path, content, hpath, hcontent, ?_⟩
  unfold FileSystem.readFile
  rw [hfull]

/-! ## Search paths -/

/-- **The boot path of a kit on the search path.** The search path that is collected begins with the boot
    path exactly if that is empty or the directory of the kit has no colon in its path; in any case it
    begins with the pieces between the colons. Each entry of the boot path, searched as it is, is taken for
    an archive and opened at the file that it leads to. -/
theorem bootPath_collect (h : ofRoot? fs root = some jdk) (environment : Sources)
    (hboot : environment.bootPath = jdk.bootPath) :
    (jdk.bootPath <+: (Collector.ofSources environment).collect.1.entries ↔
        jdk.bootPath = [] ∨ ':' ∉ root.toList) ∧
      (jdk.bootPath.flatMap splitPathList).eraseDups <+:
        (Collector.ofSources environment).collect.1.entries ∧
      ∀ entry ∈ jdk.bootPath, ∃ path content,
        Path.absolute? fs.workingDirectory entry = some path ∧
        fs.readFile entry = .ok content ∧ fs.readFile path = .ok content ∧
        ∀ layout : Layout, ".jar" ∈ layout.archiveSuffixes →
          layout.isArchive entry = true ∧ ∀ package,
            (locateIn fs layout package entry).1 =
              if archiveHolds fs package entry then some (.archive path) else none := by
  have hlists : environment.lists =
      jdk.bootPath ++ (environment.extensionDirectories ++ environment.classPath) := by
    unfold Sources.lists
    rw [hboot, List.append_assoc]
  have hne := ne_empty_of_ofRoot? h
  refine ⟨?_, Collector.isPrefix_collect hlists, ?_⟩
  · rcases bootPath_of_ofRoot? h with hnone | ⟨place, hplace, -, hpath⟩
    · rw [hnone]
      exact ⟨fun _ => Or.inl rfl, fun _ => List.nil_prefix⟩
    · -- the archive's place adds no colon to the path of the directory
      have hcolon : ':' ∈ (Path.join root place).toList ↔ ':' ∈ root.toList := by
        rw [Path.mem_toList_join_iff (by decide) hplace.isAbsolute_eq, or_iff_left hplace.colon_notMem]
      have hmem : 'r' ∈ (Path.join root place).toList :=
        (Path.mem_toList_join_iff (by decide) hplace.isAbsolute_eq).mpr (Or.inr hplace.mem_toList)
      -- so the path is a list of one exactly if the directory's is
      rw [hpath] at hlists ⊢
      rw [Collector.singleton_isPrefix_collect_iff hlists hmem (by decide), hcolon]
      simp
  · intro entry hentry
    rcases bootPath_of_ofRoot? h with hnone | ⟨place, hplace, hfile, hpath⟩
    · rw [hnone] at hentry
      exact absurd hentry List.not_mem_nil
    · rw [hpath, List.mem_singleton] at hentry
      subst hentry
      obtain ⟨path, content, habsolute, hcontent, hopened⟩ := exists_opens hplace hne hfile
      refine ⟨path, content, habsolute, hcontent, hopened, fun layout hsuffix => ?_⟩
      have harchive := hplace.isArchive_join hne hsuffix
      refine ⟨harchive, fun package => ?_⟩
      -- both paths lead to the same file, and so to the same entries of the archive
      have hholds : archiveHolds fs package path = archiveHolds fs package (Path.join root place) := by
        unfold archiveHolds archiveNames
        rw [hopened, hcontent]
      rw [locateIn_eq habsolute, if_pos harchive, hholds]

/-- A kit of the given name, booted from the archive of its runtime. -/
def oneKit (name : String) (h : isEntryName name = true) : FileSystem where
  root := .directory [(name, .directory [("jre", .directory [("lib", .directory
    [("rt.jar", .file .empty)])])])]
  workingPlace := []
  wellFormed := by
    simp only [Node.WellFormed, EntriesWellFormed, h, List.not_mem_nil, false_implies,
      implies_true, and_true]
    decide

/-- The boot path of a kit in a directory without a colon. -/
theorem bootPath_collect_oneKit : ∃ jdk, ofRoot? (oneKit "jdk8" (by decide)) "/jdk8" = some jdk ∧
    jdk.bootPath = ["/jdk8/jre/lib/rt.jar"] ∧
    jdk.bootPath <+: (Collector.ofSources ⟨jdk.bootPath, [], ["/cp"], []⟩).collect.1.entries := by
  have hkit : ∃ jdk, ofRoot? (oneKit "jdk8" (by decide)) "/jdk8" = some jdk ∧
      jdk.bootPath = ["/jdk8/jre/lib/rt.jar"] := ⟨_, rfl, by decide⟩
  obtain ⟨jdk, hjdk, hpath⟩ := hkit
  obtain ⟨hbegins, -⟩ := bootPath_collect hjdk ⟨jdk.bootPath, [], ["/cp"], []⟩ rfl
  exact ⟨jdk, hjdk, hpath, hbegins.mpr (Or.inr (by decide))⟩

/-- With a colon in the path of its directory, the archive's path is cut there. -/
theorem bootPath_cut_at_colon : ∃ jdk, ofRoot? (oneKit "jdk:8" (by decide)) "/jdk:8" = some jdk ∧
    jdk.bootPath = ["/jdk:8/jre/lib/rt.jar"] ∧
    (Collector.ofSources ⟨jdk.bootPath, [], [], []⟩).collect.1.entries =
      ["/jdk", "8/jre/lib/rt.jar"] ∧
    ¬ jdk.bootPath <+: (Collector.ofSources ⟨jdk.bootPath, [], [], []⟩).collect.1.entries :=
  ⟨_, rfl, by decide, by decide, by decide⟩

end Jdk

end QualifierDiscovery
