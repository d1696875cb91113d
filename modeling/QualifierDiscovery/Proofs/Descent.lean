import QualifierDiscovery.Proofs.Files.AbsolutePaths
import QualifierDiscovery.Proofs.Locating

/-!
# `Proofs.Descent` — going down to a package is following one path

The directory of a package is reached by one listing and one test for each segment. All of them together
come to a single test of the whole path, and to listings that succeed (`packageDirectory?_exact`). Whatever
links a path goes through, what stands before its last name is a directory (`isDirectory_of_resolve_join`), so
a path that leads to a directory has passed every test on the way down, and where no directory refuses to be
listed it has passed every listing too.

## Contents
- **Steps.** `exists_directory_of_followLinks_concat` — steps that go on to a name are in a directory there.
- **Paths.** `isDirectory_of_resolve_join`, and `isDirectory_of_joinAll` for several names.
- **Descent.** `leadsDown_iff_isDirectory` where no directory refuses to be listed, and
  `packageDirectory?_exact` in the words of a path with slashes.
-/

namespace QualifierDiscovery

/-! ## Steps -/

namespace FileSystem

section Following

variable {root : Node} {jump : Place → List String → Except FileError Target}
  {here place : Place} {node : Node} {name : String}

/-- The step lemma of `exists_directory_of_followLinks_concat`: the steps up to the next link. -/
theorem exists_directory_of_follow_concat
    (hjump : ∀ here steps, jump here (steps ++ [name]) = .ok (.present place node) →
      ∃ there entries, jump here steps = .ok (.present there (.directory entries)))
    {steps : List String} (h : follow root jump here (steps ++ [name]) = .ok (.present place node)) :
    ∃ there entries, follow root jump here steps = .ok (.present there (.directory entries)) := by
  induction steps generalizing here with
  | nil =>
    obtain ⟨entries, hhere⟩ := exists_directory_of_follow_cons h
    exact ⟨here, entries, follow_nil_eq_present_iff.mpr ⟨rfl, hhere⟩⟩
  | cons step steps ih =>
    rw [List.cons_append] at h
    rcases follow_cons_cases h with ⟨there, hthere, hothers⟩ | ⟨there, before, hthere, hothers⟩
    · rw [hothers]
      exact ih hthere
    · rw [hothers]
      rw [← List.append_assoc] at hthere
      exact hjump _ _ hthere

/-- **Steps that go on to a name have led to a directory before it**, through whatever links. By induction
    over the links allowed, and over the steps up to the next one. -/
theorem exists_directory_of_followLinks_concat {budget : Nat} {steps : List String}
    (h : followLinks root budget here (steps ++ [name]) = .ok (.present place node)) :
    ∃ there entries,
      followLinks root budget here steps = .ok (.present there (.directory entries)) := by
  induction budget generalizing here steps with
  | zero => exact exists_directory_of_follow_concat (fun _ _ hjump => absurd hjump (by simp)) h
  | succ budget ih =>
    have hbefore : ∀ here steps, followLinks root budget here (steps ++ [name]) =
        .ok (.present place node) → ∃ there entries,
          followLinks root budget here steps = .ok (.present there (.directory entries)) :=
      fun _ _ hjump => ih hjump
    exact exists_directory_of_follow_concat hbefore h

/-- A final dot asks for the directory that the steps before it have led to. -/
theorem followLinks_concat_dot {budget : Nat} {steps : List String} {entries : List (String × Node)}
    (h : followLinks root budget here steps = .ok (.present place (.directory entries))) :
    followLinks root budget here (steps ++ ["."]) = .ok (.present place (.directory entries)) := by
  have hplace := followLinks_present h
  have hsteps : followLinks root budget here (steps ++ []) = .ok (.present place (.directory entries)) := by
    rwa [List.append_nil]
  obtain ⟨budget', hrest⟩ := followLinks_append ["."] (Or.inl rfl) hsteps
  obtain ⟨jump, hjump⟩ := followLinks_eq_follow root budget'
  rw [hrest, hjump]
  exact (Leads.dot hplace (.here hplace)).follow

end Following

/-! ## Paths -/

variable {fs : FileSystem} {base name : String}

/-- **What a path goes on from is a directory.** -/
theorem isDirectory_of_resolve_join {place : Place} {node : Node} (hbase : base ≠ "")
    (hname : isEntryName name = true)
    (h : fs.resolve (Path.join base name) = .ok (.present place node)) : fs.isDirectory base = true := by
  obtain ⟨hempty, -, -, hslash, -⟩ := isEntryName_iff.mp hname
  have hrelative := Path.isAbsolute_eq_false hslash
  obtain ⟨hnul, -, hfollow⟩ := resolve_eq_ok_iff.mp h
  have hbaseNul : '\x00' ∉ base.toList := fun hmem =>
    hnul ((Path.mem_toList_join_iff (by decide) hrelative).mpr (Or.inl hmem))
  have hstart : fs.startOf (Path.join base name) = fs.startOf base := by
    unfold startOf
    rw [Path.isAbsolute_join hbase hrelative]
  rw [steps_join hbase hempty hslash, hstart] at hfollow
  obtain ⟨there, entries, hfront⟩ := exists_directory_of_followLinks_concat hfollow
  refine isDirectory_iff.mpr ⟨there, entries, resolve_eq_ok_iff.mpr ⟨hbaseNul, hbase, ?_⟩⟩
  obtain ⟨closing, hclosing, hsteps⟩ := exists_steps_eq base
  rw [hsteps]
  rcases hclosing with rfl | rfl
  · rwa [List.append_nil]
  · exact followLinks_concat_dot hfront

/-- A path to a directory passes through directories at each of its last names. By induction over the names
    from their end. -/
theorem isDirectory_of_joinAll {names front : List String} (hbase : base ≠ "")
    (hnames : ∀ name ∈ names, isEntryName name = true)
    (h : fs.isDirectory (Path.joinAll base names) = true) (hfront : front <+: names) :
    fs.isDirectory (Path.joinAll base front) = true := by
  induction names using List.reverseRecOn with
  | nil => exact List.prefix_nil.mp hfront ▸ h
  | append_singleton names last ih =>
    rcases List.prefix_concat_iff.mp hfront with rfl | hbefore
    · exact h
    · have hothers : ∀ name ∈ names, isEntryName name = true := fun name hname =>
        hnames name (List.mem_append_left _ hname)
      have hlast := hnames last (List.mem_append_right _ List.mem_cons_self)
      have hshorter : Path.joinAll base names ≠ "" :=
        Path.joinAll_ne_empty hbase fun name hname => (isEntryName_iff.mp (hothers name hname)).2.2.2.1
      rw [Path.joinAll_concat] at h
      obtain ⟨place, entries, hresolve⟩ := isDirectory_iff.mp h
      exact ih hothers (isDirectory_of_resolve_join hshorter hlast hresolve) hbefore

theorem isDirectory_empty (fs : FileSystem) : fs.isDirectory "" = false := by
  rw [Bool.eq_false_iff]
  intro h
  obtain ⟨place, entries, hresolve⟩ := isDirectory_iff.mp h
  exact ne_empty_of_resolve hresolve rfl

end FileSystem

/-! ## Descent -/

variable {fs : FileSystem} {package : Package}

/-- Where no directory refuses to be listed, the tests on the way down come to the last of them. -/
theorem leadsDown_iff_isDirectory {root : String} (hroot : root ≠ "") (hclosed : fs.closed = []) :
    fs.LeadsDown root package.segments ↔
      fs.isDirectory (Path.joinAll root package.segments) = true := by
  refine ⟨FileSystem.LeadsDown.isDirectory, fun h => ?_⟩
  exact (FileSystem.leadsDown_iff_forall hclosed).mpr fun front =>
    FileSystem.isDirectory_of_joinAll hroot (fun _ => Package.isEntryName_of_mem_segments) h

/-- The segments below a root make one path, with slashes between them. -/
theorem joinAll_segments {root : String} (hroot : root ≠ "") :
    Path.joinAll root package.segments = Path.join root package.slashed := by
  rw [Package.slashed_eq]
  exact Path.joinAll_eq_join hroot Package.segments_ne_nil fun _ => Package.isEntryName_of_mem_segments

/-- Nothing is found below the empty text, which is no path. -/
theorem packageDirectory?_empty : packageDirectory? fs package "" = none := by
  unfold packageDirectory?
  rw [fs.isDirectory_empty]
  rfl

/-- **Going down segment by segment is one test of the whole path.** Below any root, the descent finds the
    package exactly if the root and the segments, joined by slashes, lead to a directory, through whatever
    links, and every directory above it can be listed; and then that joined path is what it gives. So in
    files, directories and links alone, none of which refuses to be listed, the test of the path decides.
    The empty text leads nowhere and is no root, though the segments alone may lead somewhere from the working
    directory; the roots that a search starts from are absolute forms of its entries and so never empty. -/
theorem packageDirectory?_exact (fs : FileSystem) (package : Package) :
    (∀ root found, packageDirectory? fs package root = some found ↔
      root ≠ "" ∧ found = Path.join root package.slashed ∧
        (∃ place entries, fs.resolve found = .ok (.present place (.directory entries))) ∧
        ∀ front, front <+: package.segments → front ≠ package.segments →
          fs.Listable (Path.joinAll root front)) ∧
    (fs.closed = [] →
      (∀ root found, packageDirectory? fs package root = some found ↔
        root ≠ "" ∧ found = Path.join root package.slashed ∧
          ∃ place entries, fs.resolve found = .ok (.present place (.directory entries))) ∧
      ∀ entry root found, Path.absolute? fs.workingDirectory entry = some root →
        (packageDirectory? fs package root = some found ↔
          found = Path.join root package.slashed ∧
            ∃ place entries, fs.resolve found = .ok (.present place (.directory entries)))) := by
  have hopen : fs.closed = [] → ∀ root found, root ≠ "" →
      (packageDirectory? fs package root = some found ↔
        found = Path.join root package.slashed ∧
          ∃ place entries, fs.resolve found = .ok (.present place (.directory entries))) := by
    intro hclosed root found hroot
    rw [packageDirectory?_eq_some_iff_leadsDown, leadsDown_iff_isDirectory hroot hclosed,
      ← joinAll_segments hroot]
    refine and_congr_right ?_
    rintro rfl
    exact FileSystem.isDirectory_iff
  refine ⟨fun root found => ?_, fun hclosed => ⟨fun root found => ?_, fun entry root found hentry => ?_⟩⟩
  · by_cases hroot : root = ""
    · rw [hroot, packageDirectory?_empty]
      simp
    · rw [packageDirectory?_eq_some_iff_leadsDown, and_iff_right hroot, ← joinAll_segments hroot]
      refine and_congr_right ?_
      rintro rfl
      rw [← FileSystem.isDirectory_iff]
      exact ⟨fun h => ⟨h.isDirectory, h.listable⟩, fun h => ⟨h.1, h.2⟩⟩
  · by_cases hroot : root = ""
    · rw [hroot, packageDirectory?_empty]
      simp
    · rw [hopen hclosed root found hroot]
      exact (and_iff_right hroot).symm
  · exact hopen hclosed root found
      (FileSystem.ne_empty_of_isAbsolute (FileSystem.isAbsolute_of_absolute? hentry))

/-- A root in which the package `demo.qual` is reached through two links. -/
def linkedPackage : FileSystem where
  root := .directory [("r", .directory [("demo", .link "../store/current")]),
    ("store", .directory [("current", .link "v1"), ("v1", .directory [("qual", .directory [])])])]
  workingPlace := ["r"]
  wellFormed := by
    simp only [Node.WellFormed, EntriesWellFormed, List.mem_cons, List.not_mem_nil, or_false,
      false_implies, implies_true, and_true, forall_eq]
    decide

theorem packageDirectory?_exact_linkedPackage :
    linkedPackage.closed = [] ∧ Path.absolute? linkedPackage.workingDirectory "." = some "/r" ∧
      packageDirectory? linkedPackage ⟨"demo.qual", by decide⟩ "/r" = some "/r/demo/qual" := by
  have hroot : Path.absolute? linkedPackage.workingDirectory "." = some "/r" := by decide
  have hdescent := ((packageDirectory?_exact linkedPackage ⟨"demo.qual", by decide⟩).2 rfl).2 "." "/r"
    "/r/demo/qual" hroot
  exact ⟨rfl, hroot, hdescent.mpr ⟨by decide, FileSystem.isDirectory_iff.mp (by decide +kernel)⟩⟩

/-- A root of which one directory on the way down cannot be listed. -/
example : packageDirectory? { linkedPackage with closed := [["store", "v1"]] }
    ⟨"demo.qual", by decide⟩ "/r" = none := by
  decide +kernel

/-- From the working directory the segments lead to the package, but the empty text is no root for it. -/
example : linkedPackage.isDirectory "demo/qual" = true ∧
    packageDirectory? linkedPackage ⟨"demo.qual", by decide⟩ "" = none := by
  decide +kernel

end QualifierDiscovery
