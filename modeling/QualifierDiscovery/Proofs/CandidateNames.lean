import QualifierDiscovery.Proofs.SourceTrees

/-!
# `Proofs.CandidateNames` — names of classes and paths of their files

A qualified name stands for a path below a root, and the file there is taken for that class, whatever the
root is and however its path is written (`candidateName?_sourcePath`): the components of the path are those
of the root with the segments of the name behind them. In the other direction a name tells the path of its
file, if the names on the way have no dots: they are the segments of the name (`Layout.Gives.segments_eq`).

## Contents
- **From names to files.** `components_sourcePath` and `candidateName?_sourcePath`.
- **From files to names.** `names_eq_of_gives` — different files give different names;
  `candidateName?_eq_none_iff` — files that give none.
- **`candidateName?_exact`** for every layout and every root.
-/

namespace QualifierDiscovery

variable {layout : Layout} {root file name : String} {names others : List String}

/-! ## From names to files -/

/-- The path that a qualified name stands for has its segments behind the components of the root. -/
theorem components_sourcePath {dirs : List String} {last : String} (root : String)
    (hidentifiers : ∀ piece ∈ dirs ++ [last], Name.isIdentifier piece = true)
    (hsuffix : '/' ∉ layout.sourceSuffix.toList) :
    Path.components (layout.sourcePath root (Text.join '.' (dirs ++ [last]))) =
      Path.components root ++ (dirs ++ [last ++ layout.sourceSuffix]).map .normal := by
  have hdots : ∀ piece ∈ dirs ++ [last], '.' ∉ piece.toList :=
    fun piece hpiece => Name.notMem_of_isIdentifier (hidentifiers piece hpiece) (by decide)
  have hnames : ∀ piece ∈ dirs ++ [last ++ layout.sourceSuffix], Path.IsName piece := by
    intro piece hpiece
    rcases List.mem_append.mp hpiece with hdir | hfileName
    · have hidentifier := hidentifiers piece (List.mem_append_left _ hdir)
      exact (Path.isEntryName_iff_isName.mp (isEntryName_of_isIdentifier hidentifier)).1
    · rw [List.mem_singleton.mp hfileName]
      exact isName_append (hidentifiers last (by simp)) hsuffix
  rw [Layout.sourcePath, Text.replaceChar_join hdots, ← Text.join_concat_append]
  exact Path.components_join_names root (by simp) hnames

/-- **A qualified name is read back from the path that it stands for**, below any root. -/
theorem candidateName?_sourcePath (root : String) (hname : Name.isQualified name = true)
    (hsuffix : '/' ∉ layout.sourceSuffix.toList) :
    candidateName? layout root (layout.sourcePath root name) = some name := by
  obtain ⟨dirs, last, hidentifiers, rfl⟩ := Name.exists_identifiers hname
  exact candidateName?_eq_some_iff.mpr ⟨_, components_sourcePath root hidentifiers hsuffix, dirs, last, rfl,
    Name.ne_empty_of_isIdentifier (hidentifiers last (by simp)), rfl⟩

/-! ## From files to names -/

/-- Without dots in the names that lead to a file, they are the segments of the name that it gives. -/
theorem Layout.Gives.segments_eq (h : layout.Gives names name) (hundotted : layout.Undotted names) :
    ∃ dirs stem, names = dirs ++ [stem ++ layout.sourceSuffix] ∧ Name.segments name = dirs ++ [stem] := by
  obtain ⟨dirs, stem, rfl, -, rfl⟩ := h
  exact ⟨dirs, stem, rfl, Text.split_join (Layout.undotted_concat_iff.mp hundotted) (by simp)⟩

/-- **Different files give different names**, if there are no dots in the names that lead to them. -/
theorem names_eq_of_gives (hnames : layout.Undotted names) (hothers : layout.Undotted others)
    (h : layout.Gives names name) (h' : layout.Gives others name) : names = others := by
  obtain ⟨dirs, stem, rfl, hsegments⟩ := h.segments_eq hnames
  obtain ⟨dirs', stem', rfl, hsegments'⟩ := h'.segments_eq hothers
  obtain ⟨rfl, hstem⟩ := List.append_inj' (hsegments.symm.trans hsegments') rfl
  rw [List.singleton_inj.mp hstem]

/-- A file has no name if it is not below the root by names that give one. -/
theorem candidateName?_eq_none_iff :
    candidateName? layout root file = none ↔
      ∀ names, Path.components file = Path.components root ++ names.map .normal →
        ∀ name, ¬ layout.Gives names name := by
  rw [Option.eq_none_iff_forall_ne_some]
  simp only [ne_eq, candidateName?_eq_some_iff, not_exists, not_and]
  exact ⟨fun h names hcomponents name => h name names hcomponents,
    fun h name names hcomponents => h names hcomponents name⟩

/-! ## Every layout and every root -/

/-- **Names and paths.** If the source suffix has no slash, every qualified name is read back from the path
    that it stands for below the root. Two files below the root that have the same name, and no dots in their
    directories and stems, lie at the same names below it. And a file has no name if its components do not
    begin with those of the root, if there is a double dot among those that follow, or if the last of them
    does not end with the suffix or is nothing else. -/
theorem candidateName?_exact (layout : Layout) (root : String) :
    ('/' ∉ layout.sourceSuffix.toList → ∀ name, Name.isQualified name = true →
      candidateName? layout root (layout.sourcePath root name) = some name) ∧
    (∀ file other names others name,
      Path.components file = Path.components root ++ names.map .normal →
      Path.components other = Path.components root ++ others.map .normal →
      layout.Undotted names → layout.Undotted others →
      candidateName? layout root file = some name → candidateName? layout root other = some name →
        names = others) ∧
    (∀ file, ¬ Path.components root <+: Path.components file →
      candidateName? layout root file = none) ∧
    (∀ file rest, Path.components file = Path.components root ++ rest → .parent ∈ rest →
      candidateName? layout root file = none) ∧
    ∀ file dirs last, Path.components file = Path.components root ++ (dirs ++ [last]).map .normal →
      Text.endsWith layout.sourceSuffix last = false ∨ last = layout.sourceSuffix →
        candidateName? layout root file = none := by
  refine ⟨fun hsuffix name hname => candidateName?_sourcePath root hname hsuffix, ?_, ?_, ?_, ?_⟩
  · intro file other names others name hfile hother hnames hothers hname hname'
    obtain ⟨given, hgiven, hgives⟩ := candidateName?_eq_some_iff.mp hname
    obtain ⟨given', hgiven', hgives'⟩ := candidateName?_eq_some_iff.mp hname'
    obtain rfl := Path.names_eq_of_append_map_normal_eq (hfile.symm.trans hgiven)
    obtain rfl := Path.names_eq_of_append_map_normal_eq (hother.symm.trans hgiven')
    exact names_eq_of_gives hnames hothers hgives hgives'
  · intro file hroot
    refine candidateName?_eq_none_iff.mpr fun names hcomponents name _ => hroot ?_
    rw [hcomponents]
    exact List.prefix_append _ _
  · intro file rest hrest hparent
    refine candidateName?_eq_none_iff.mpr fun names hcomponents name _ => ?_
    rw [List.append_cancel_left (hrest.symm.trans hcomponents)] at hparent
    obtain ⟨_, -, hnormal⟩ := List.mem_map.mp hparent
    exact absurd hnormal (by simp)
  · intro file dirs last hlast hno
    refine candidateName?_eq_none_iff.mpr fun names hcomponents name hgives => ?_
    obtain ⟨dirs', stem, rfl, hstem, -⟩ := hgives
    have hsame := Path.names_eq_of_append_map_normal_eq (hlast.symm.trans hcomponents)
    obtain ⟨-, hfileName⟩ := List.append_inj' hsame rfl
    obtain rfl := List.singleton_inj.mp hfileName
    rcases hno with hends | hsuffix
    · rw [Text.endsWith_iff.mpr ⟨stem, rfl⟩] at hends
      exact absurd hends (by simp)
    · exact hstem (String.append_eq_right_iff.mp hsuffix)

/-- Below a root that is written with a dot and doubled slashes, and beside another file there. -/
theorem candidateName?_exact_java :
    Layout.java.sourcePath "/src//./quals/" "sub.pkg.MyQual" = "/src//./quals/sub/pkg/MyQual.java" ∧
      candidateName? .java "/src//./quals/" "/src//./quals/sub/pkg/MyQual.java" = some "sub.pkg.MyQual" ∧
      candidateName? .java "/src//./quals/" "/src/MyQual.java" = none ∧
      candidateName? .java "/src//./quals/" "/src/quals/../MyQual.java" = none ∧
      candidateName? .java "/src//./quals/" "/src/quals/.java" = none := by
  obtain ⟨hinverse, -, hroot, hparent, hstem⟩ := candidateName?_exact .java "/src//./quals/"
  exact ⟨by decide, hinverse (by decide) "sub.pkg.MyQual" (by decide), hroot _ (by decide),
    hparent _ [.parent, .normal "MyQual.java"] (by decide) (by decide),
    hstem _ [] ".java" (by decide) (.inr (by decide))⟩

end QualifierDiscovery
