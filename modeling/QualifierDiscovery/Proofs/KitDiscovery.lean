import QualifierDiscovery.Proofs.BootEntries

/-!
# `Proofs.KitDiscovery` — the first development kit

A search for a development kit is made of two searches, one through the roots of installations and one
through the entries of each, and it passes over what is missing, cannot be listed or holds no kit. All of
that together comes to one search through one list of places (`discover_eq_findSome?`), in which the first
place that is a kit wins (`discover_exact`).

## Contents
- **Kits.** `exists_boots_iff` — where there is something to boot from; `Boots.ne_nil`.
- **Places.** `entryPaths_of_listsInOrder`, `entryPaths_eq_nil` — the entries of a root, if it has any.
- **Searches.** `findAt?_eq_findSome?` — one root; `findSome?_findAt?` — all roots;
  `discover_eq_findSome?` — the whole search.
-/

namespace QualifierDiscovery

variable {fs : FileSystem} {root : String}

/-! ## Kits -/

namespace Jdk

theorem ofRoot?_eq_none (h : fs.isDirectory root = false) : ofRoot? fs root = none := by
  rw [Option.eq_none_iff_forall_ne_some]
  intro jdk hjdk
  rw [(ofRoot?_eq_some_iff.mp hjdk).1] at h
  exact absurd h (by simp)

/-- There is something to boot from exactly if one of the four places has it. -/
theorem exists_boots_iff :
    (∃ entries, Boots fs root entries) ↔
      fs.isFile (Path.join root "lib/modules") = true ∨
        fs.isFile (Path.join root "jre/lib/rt.jar") = true ∨
        fs.isFile (Path.join root "lib/rt.jar") = true ∨
        ∃ names, fs.listDirectory (Path.join root "jmods") = .ok names ∧
          ∃ name ∈ names, Text.endsWith Layout.moduleSuffix name = true := by
  constructor
  · rintro ⟨entries, hboots⟩
    cases hboots with
    | modules hmodules => exact Or.inl hmodules
    | inner _ hinner => exact Or.inr (Or.inl hinner)
    | outer _ _ houter => exact Or.inr (Or.inr (Or.inl houter))
    | moduleFiles _ _ _ hnames hsome =>
      obtain ⟨listed, hlisted, hmem⟩ := hnames.exists_listed
      obtain ⟨name, hname⟩ := List.exists_mem_of_ne_nil _ hsome
      obtain ⟨hname, hmodule⟩ := (hmem name).mp hname
      exact Or.inr (Or.inr (Or.inr ⟨listed, hlisted, name, hname, hmodule⟩))
  · intro h
    -- the first of the places that has something decides
    cases hmodules : fs.isFile (Path.join root "lib/modules") with
    | true => exact ⟨_, .modules hmodules⟩
    | false =>
      cases hinner : fs.isFile (Path.join root "jre/lib/rt.jar") with
      | true => exact ⟨_, .inner hmodules hinner⟩
      | false =>
        cases houter : fs.isFile (Path.join root "lib/rt.jar") with
        | true => exact ⟨_, .outer hmodules hinner houter⟩
        | false =>
          rw [hmodules, hinner, houter] at h
          obtain ⟨listed, hlisted, name, hname, hmodule⟩ := by simpa using h
          have hnames := FileSystem.listsInOrder_sortedBy hlisted (Text.endsWith Layout.moduleSuffix)
          refine ⟨_, .moduleFiles hmodules hinner houter hnames ?_⟩
          rw [ne_eq, Text.sortedBy_eq_nil_iff]
          exact List.ne_nil_of_mem (List.mem_filter.mpr ⟨hname, hmodule⟩)

/-- What a kit is booted from is never nothing. -/
theorem Boots.ne_nil {entries : List String} (h : Boots fs root entries) : entries ≠ [] := by
  cases h with
  | modules => exact List.cons_ne_nil _ _
  | inner => exact List.cons_ne_nil _ _
  | outer => exact List.cons_ne_nil _ _
  | moduleFiles _ _ _ _ hsome => rwa [ne_eq, List.map_eq_nil_iff]

theorem exists_ofRoot?_iff :
    (∃ jdk, ofRoot? fs root = some jdk) ↔
      fs.isDirectory root = true ∧ ∃ entries, Boots fs root entries := by
  constructor
  · rintro ⟨jdk, hjdk⟩
    obtain ⟨hroot, hboots, -⟩ := ofRoot?_eq_some_iff.mp hjdk
    exact ⟨hroot, _, hboots⟩
  · rintro ⟨hroot, entries, hboots⟩
    exact ⟨⟨root, versionOf? fs root, entries⟩, ofRoot?_eq_some_iff.mpr ⟨hroot, hboots, rfl, rfl⟩⟩

end Jdk

namespace JdkSearch

/-! ## Places -/

theorem entryPaths_of_listsInOrder {names : List String}
    (h : fs.ListsInOrder root (fun _ => true) names) : entryPaths fs root = names.map (Path.join root) := by
  obtain ⟨listed, hlisted, rfl⟩ := h.exists_eq_sortedBy
  unfold entryPaths
  rw [hlisted, List.filter_true]

theorem entryPaths_eq_nil (h : ¬ fs.Listable root) : entryPaths fs root = [] := by
  unfold entryPaths
  cases hlisted : fs.listDirectory root with
  | error cause => rfl
  | ok names => exact absurd ⟨names, hlisted⟩ h

/-! ## Searches -/

/-- **A root is searched as the list of itself and its entries.** Where it leads nowhere there is no kit
    among them either. -/
theorem findAt?_eq_findSome? (fs : FileSystem) (root : String) :
    findAt? fs root = (root :: entryPaths fs root).findSome? (Jdk.ofRoot? fs) := by
  unfold findAt?
  rw [List.findSome?_cons]
  cases hcontains : fs.contains root with
  | true =>
    rw [if_pos rfl]
    cases Jdk.ofRoot? fs root <;> rfl
  | false =>
    have hdirectory := FileSystem.isDirectory_eq_false_of_not_contains hcontains
    have hlistable : ¬ fs.Listable root := fun h => absurd h.isDirectory (by simp [hdirectory])
    rw [Jdk.ofRoot?_eq_none hdirectory, entryPaths_eq_nil hlistable]
    rfl

/-- **A root without a kit does not hide the next one.** By induction over the roots. -/
theorem findSome?_findAt? (fs : FileSystem) (roots : List String) :
    roots.findSome? (findAt? fs) =
      (roots.flatMap fun root => root :: entryPaths fs root).findSome? (Jdk.ofRoot? fs) := by
  induction roots with
  | nil => rfl
  | cons root rest ih =>
    rw [List.flatMap_cons, List.findSome?_append, ← findAt?_eq_findSome?, ← ih, List.findSome?_cons]
    cases findAt? fs root <;> rfl

/-- **The searches are one**, through all places in their order. -/
theorem discover_eq_findSome? (search : JdkSearch) (fs : FileSystem) :
    search.discover fs = (search.places fs).findSome? (Jdk.ofRoot? fs) := by
  have hchoice : search.javaHome.toList.findSome? (Jdk.ofRoot? fs) =
      search.javaHome.bind (Jdk.ofRoot? fs) := by
    cases search.javaHome with
    | none => rfl
    | some home => simp [Option.toList]
  unfold discover places
  rw [List.findSome?_append, hchoice, ← findSome?_findAt?]
  cases search.javaHome.bind (Jdk.ofRoot? fs) <;> rfl

/-! ## Exactness -/

/-- **The first kit in one fixed order.** The places of a search are the user's choice and then each root,
    followed by its entries in the order of their names, if it can be listed. What is found is the kit at
    the first place that is one, and nothing is found only if none is. A place is a kit exactly if it is a
    directory with a modules file, an archive of the runtime in either place or a module file; the first of
    these that is there gives its boot entries. So there are always some, and of them only the archive can be
    searched. -/
theorem discover_exact (fs : FileSystem) :
    (∀ search : JdkSearch,
      (∀ jdk, search.discover fs = some jdk ↔
        ∃ before place after, search.places fs = before ++ place :: after ∧
          (∀ earlier ∈ before, Jdk.ofRoot? fs earlier = none) ∧ Jdk.ofRoot? fs place = some jdk) ∧
      (search.discover fs = none ↔ ∀ place ∈ search.places fs, Jdk.ofRoot? fs place = none)) ∧
    (∀ root names, fs.ListsInOrder root (fun _ => true) names →
      entryPaths fs root = names.map (Path.join root)) ∧
    (∀ root, ¬ fs.Listable root → entryPaths fs root = []) ∧
    ∀ root,
      ((∃ jdk, Jdk.ofRoot? fs root = some jdk) ↔
        fs.isDirectory root = true ∧
          (fs.isFile (Path.join root "lib/modules") = true ∨
            fs.isFile (Path.join root "jre/lib/rt.jar") = true ∨
            fs.isFile (Path.join root "lib/rt.jar") = true ∨
            ∃ names, fs.listDirectory (Path.join root "jmods") = .ok names ∧
              ∃ name ∈ names, Text.endsWith ".jmod" name = true)) ∧
      ∀ jdk, Jdk.ofRoot? fs root = some jdk →
        jdk.root = root ∧ Jdk.Boots fs root jdk.bootEntries ∧ jdk.bootEntries ≠ [] ∧
          (jdk.bootPath = [] ∨ jdk.bootPath = [Path.join root "jre/lib/rt.jar"] ∨
            jdk.bootPath = [Path.join root "lib/rt.jar"]) := by
  refine ⟨fun search => ⟨fun jdk => ?_, ?_⟩, fun root names => entryPaths_of_listsInOrder,
    fun root => entryPaths_eq_nil, fun root => ⟨?_, fun jdk hjdk => ?_⟩⟩
  · rw [discover_eq_findSome?, List.findSome?_eq_some_iff]
    simp only [and_comm]
  · rw [discover_eq_findSome?, List.findSome?_eq_none_iff]
  · rw [Jdk.exists_ofRoot?_iff, Jdk.exists_boots_iff]
    rfl
  · obtain ⟨-, hboots, hroot, -⟩ := Jdk.ofRoot?_eq_some_iff.mp hjdk
    refine ⟨hroot, hboots, hboots.ne_nil, ?_⟩
    rcases Jdk.bootPath_of_ofRoot? hjdk with hnone | ⟨place, hplace, -, hpath⟩
    · exact Or.inl hnone
    · cases hplace with
      | inner => exact Or.inr (Or.inl hpath)
      | outer => exact Or.inr (Or.inr hpath)

/-- Installations beside a file of another kind, and nothing else. -/
def oneInstallation : FileSystem where
  root := .directory [("jvm", .directory [("README", .file .empty),
    ("jdk-21", .directory [("jmods", .directory [("java.sql.jmod", .file .empty), ("README", .file .empty),
      ("java.base.jmod", .file .empty)])])])]
  workingPlace := []
  wellFormed := by
    simp only [Node.WellFormed, EntriesWellFormed, List.mem_cons, List.not_mem_nil, or_false,
      false_implies, implies_true, and_true, forall_eq_or_imp, forall_eq]
    decide

/-- Neither a choice and a root that are missing nor a file among the entries hide the kit after them. -/
theorem discover_exact_oneInstallation :
    ∃ jdk, (⟨some "/missing", ["/opt", "/jvm"]⟩ : JdkSearch).discover oneInstallation = some jdk ∧
      Jdk.Boots oneInstallation "/jvm/jdk-21" jdk.bootEntries ∧ jdk.bootEntries ≠ [] := by
  obtain ⟨hsearch, hlisted, hmissing, hkits⟩ := discover_exact oneInstallation
  obtain ⟨hkit, hboots⟩ := hkits "/jvm/jdk-21"
  obtain ⟨jdk, hjdk⟩ := hkit.mpr ⟨by decide +kernel, Or.inr (Or.inr (Or.inr
    ⟨["java.sql.jmod", "README", "java.base.jmod"], rfl, "java.sql.jmod", by decide, by decide⟩))⟩
  have hinstallations : entryPaths oneInstallation "/jvm" = ["/jvm/README", "/jvm/jdk-21"] :=
    hlisted "/jvm" ["README", "jdk-21"]
      ⟨List.pairwise_pair.mpr (by decide), ["README", "jdk-21"], rfl, by simp⟩
  have hplaces : (⟨some "/missing", ["/opt", "/jvm"]⟩ : JdkSearch).places oneInstallation =
      ["/missing", "/opt", "/jvm", "/jvm/README"] ++ "/jvm/jdk-21" :: [] := by
    unfold places
    have hopt : ¬ oneInstallation.Listable "/opt" := fun h => absurd h.isDirectory (by decide +kernel)
    rw [List.flatMap_cons, List.flatMap_singleton, hmissing "/opt" hopt, hinstallations]
    rfl
  obtain ⟨-, hentries, hsome, -⟩ := hboots jdk hjdk
  refine ⟨jdk, ((hsearch _).1 jdk).mpr ⟨_, _, _, hplaces, ?_, hjdk⟩, hentries, hsome⟩
  decide +kernel

end JdkSearch

end QualifierDiscovery
