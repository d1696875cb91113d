import QualifierDiscovery.Proofs.Files.Walk
import QualifierDiscovery.Proofs.SourceTrees

/-!
# `Proofs.ExternalListing` — the candidates below a directory

The files that a walk lists give candidates, one for each that has a source stem, in the order of the files.
What the walk does about links comes from `mem_filesBelow_iff`: which files are listed is said by the paths
alone. It ends whatever the links are, since the paths that it comes along are finitely many and none of them
is longer than a bound (`finite_entered`, `Entered.length_lt`).

## Contents
- **Candidates of a list of files.** `forall₂_filterMap` — one candidate for each file that has one.
- **`externalNames_exact`** for every file system and every directory.
-/

namespace QualifierDiscovery

/-! ## Candidates of a list of files -/

/-- A partial function gives one value for each member at which it has one, in their order. -/
theorem forall₂_filterMap {α β : Type} {f : α → Option β} {relation : α → β → Prop} {members : List α}
    (h : ∀ member ∈ members, ∀ value, f member = some value → relation member value) :
    List.Forall₂ relation (members.filter fun member => (f member).isSome) (members.filterMap f) := by
  induction members with
  | nil => exact .nil
  | cons first rest ih =>
    have hrest := ih fun member hmember => h member (List.mem_cons_of_mem _ hmember)
    cases hfirst : f first with
    | none =>
      rw [List.filterMap_cons_none hfirst, List.filter_cons_of_neg (by simp [hfirst])]
      exact hrest
    | some value =>
      rw [List.filterMap_cons_some hfirst, List.filter_cons_of_pos (by simp [hfirst])]
      exact .cons (h first List.mem_cons_self value hfirst) hrest

/-- What a listed file is taken for. -/
theorem candidateName?_eq_some_iff_gives {fs : FileSystem} {layout : Layout} {root name : String}
    {names : List String} (h : names ∈ fs.filesBelow root) :
    candidateName? layout root (Path.joinAll root names) = some name ↔ layout.Gives names name :=
  candidateName?_joinAll_eq_some_iff (FileSystem.start_ne_empty_of_mem_filesBelow h)
    (FileSystem.isFileBelow_of_mem_filesBelow h).entryNames

/-! ## The candidates below a directory -/

/-- **What is listed below a directory, and that the listing ends.** The names are those of the regular files
    with a source stem, one for each path that leads to such a file through directories that can be listed,
    where a link is followed into a directory exactly if the path has not come through that directory before.
    In files, directories and links alone, none of which refuses to be listed, these are all directories.
    The names come in the order of the paths, name by name and byte by byte. The paths through directories
    are finitely many, and none has as many names as the square of the number of directories; so the bound
    on the links of a path is never reached, and a larger one changes nothing. -/
theorem externalNames_exact (fs : FileSystem) (layout : Layout) (root : String) :
    (∃ paths : List (List String), List.Forall₂ layout.Gives paths (externalNames fs layout root) ∧
      (∀ names, names ∈ paths ↔ fs.IsListed root names ∧ ∃ name, layout.Gives names name) ∧
      paths.Pairwise fun names others => names.map Text.utf8Bytes < others.map Text.utf8Bytes) ∧
    (fs.closed = [] → ∀ path, fs.Listable path ↔ fs.isDirectory path = true) ∧
    {names | fs.Entered root names}.Finite ∧
    (∀ names, fs.Entered root names →
      names.length < fs.root.directoryCount * fs.root.directoryCount) ∧
    ∀ here entries budget, fs.resolve root = .ok (.present here (.directory entries)) →
      fs.root.directoryCount ≤ budget →
        fs.filesWithin root budget [here] [] here = fs.filesBelow root := by
  refine ⟨⟨_, forall₂_filterMap fun names hnames name => (candidateName?_eq_some_iff_gives hnames).mp,
    fun names => ?_, ?_⟩, fun hclosed _ => FileSystem.listable_iff_isDirectory hclosed,
    FileSystem.finite_entered fs root, fun names h => h.length_lt,
    fun here entries budget hroot hbudget => FileSystem.filesWithin_eq_filesBelow hroot hbudget⟩
  · rw [List.mem_filter, ← FileSystem.mem_filesBelow_iff]
    refine and_congr_right fun hnames => ?_
    rw [Option.isSome_iff_exists]
    exact exists_congr fun name => candidateName?_eq_some_iff_gives hnames
  · refine ((FileSystem.increasing_filesBelow fs root).filter _).imp fun {names others} hless => ?_
    exact List.map_lt (fun _ _ => Text.utf8Bytes_lt_of_lt) hless

/-- A source file in one directory, and a link to some target in another. -/
def besideLink (target : String) : FileSystem where
  root := .directory
    [("a", .directory [("A.java", .file .empty)]), ("b", .directory [("l", .link target)])]
  workingPlace := []
  wellFormed := by
    simp only [Node.WellFormed, EntriesWellFormed, List.mem_cons, List.not_mem_nil, or_false,
      forall_eq, false_implies, implies_true, and_true]
    decide

/-- From the directory with the link, the other one is entered; the directory itself is not. -/
theorem externalNames_exact_besideLink :
    externalNames (besideLink "/a") .java "/b" = ["l.A"] ∧
      (∃ paths : List (List String), List.Forall₂ Layout.java.Gives paths ["l.A"] ∧
        ∀ names ∈ paths, (besideLink "/a").IsListed "/b" names) ∧
      externalNames (besideLink ".") .java "/b" = [] ∧
      (besideLink ".").filesWithin "/b" 3 [["b"]] [] ["b"] = (besideLink ".").filesBelow "/b" := by
  have hnames : externalNames (besideLink "/a") .java "/b" = ["l.A"] := by
    decide +kernel
  obtain ⟨⟨paths, hgives, hpaths, -⟩, -⟩ := externalNames_exact (besideLink "/a") .java "/b"
  obtain ⟨-, -, -, -, hbudget⟩ := externalNames_exact (besideLink ".") .java "/b"
  rw [hnames] at hgives
  exact ⟨hnames, ⟨paths, hgives, fun names h => ((hpaths names).mp h).1⟩, by decide +kernel,
    hbudget ["b"] _ 3 rfl (by decide)⟩

end QualifierDiscovery
