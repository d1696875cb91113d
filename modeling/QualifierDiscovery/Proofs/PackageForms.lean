import QualifierDiscovery.Proofs.Checkers
import QualifierDiscovery.Proofs.Registry

/-!
# `Proofs.PackageForms` — the forms of a package and the names in it

A dotted text is a name exactly if both its parts are, so a package is derived from a namespace and a suffix
exactly if each of them is a name on its own, or the namespace is empty. Dots, slashes and segments then tell
the same (`forNamespace?_exact`). Names are put together and taken apart in several places: a package
qualifies a simple name, a descriptor splits its own, a checker its type's. They agree on every text
(`qualify_exact`).

## Contents
- **Forms.** `exists_forNamespace?_iff`, `segments_of_forNamespace?`; `eq_of_slashed_eq`.
- **Names in a package.** `Checker.ofTypeName_eq`; the check of a name in
  `forall_fault?_ne_unqualifiedName_iff`.
-/

namespace QualifierDiscovery

/-! ## Forms -/

namespace Package

variable {package other : Package} {dotted namespaceName suffix : String}

theorem ofDotted?_eq_some_iff : ofDotted? dotted = some package ↔ package.dotted = dotted := by
  unfold ofDotted?
  constructor
  · intro h
    split at h
    · rw [← Option.some.inj h]
    · exact absurd h (by simp)
  · rintro rfl
    exact dif_pos package.qualified

theorem exists_ofDotted?_iff :
    (∃ package, ofDotted? dotted = some package) ↔ Name.isQualified dotted = true := by
  constructor
  · rintro ⟨package, hpackage⟩
    rw [← ofDotted?_eq_some_iff.mp hpackage]
    exact package.qualified
  · intro h
    exact ⟨⟨dotted, h⟩, ofDotted?_eq_some_iff.mpr rfl⟩

/-- Segments have no slash, and so they come out of the slashed form as well. -/
theorem split_slashed (package : Package) : Text.split '/' package.slashed = package.segments := by
  rw [slashed_eq]
  exact Text.split_join (fun _ => slash_notMem_of_mem_segments) segments_ne_nil

/-- **The slashed form tells the package.** -/
theorem eq_of_slashed_eq (h : package.slashed = other.slashed) : package = other := by
  have hsegments : package.segments = other.segments := by
    rw [← split_slashed, h, split_slashed]
  have hdotted : package.dotted = other.dotted := by
    rw [dotted_eq, hsegments, ← dotted_eq]
  have hfound := ofDotted?_eq_some_iff.mpr hdotted
  rw [ofDotted?_eq_some_iff.mpr rfl] at hfound
  exact (Option.some.inj hfound).symm

theorem nameFor_of_ne_empty (h : namespaceName ≠ "") :
    nameFor namespaceName suffix = namespaceName ++ "." ++ Text.dropLeading '.' suffix := by
  unfold nameFor
  exact if_neg (by simpa using h)

/-- A package is derived exactly if its two parts are names, the first perhaps an empty one. -/
theorem exists_forNamespace?_iff :
    (∃ package, forNamespace? namespaceName suffix = some package) ↔
      Name.isQualified (Text.dropLeading '.' suffix) = true ∧
        (namespaceName = "" ∨ Name.isQualified namespaceName = true) := by
  unfold forNamespace?
  rw [exists_ofDotted?_iff]
  by_cases hempty : namespaceName = ""
  · subst hempty
    exact ⟨fun h => ⟨h, Or.inl rfl⟩, fun h => h.1⟩
  · rw [nameFor_of_ne_empty hempty, Name.isQualified_append_iff, or_iff_right hempty]
    exact and_comm

/-- A derived package has the segments of the namespace, if that has any, and then those of the suffix. -/
theorem segments_of_forNamespace? (h : forNamespace? namespaceName suffix = some package) :
    package.segments = (if namespaceName = "" then [] else Text.split '.' namespaceName) ++
      Text.split '.' (Text.dropLeading '.' suffix) := by
  have hdotted : package.dotted = nameFor namespaceName suffix := ofDotted?_eq_some_iff.mp h
  unfold segments
  rw [hdotted]
  by_cases hempty : namespaceName = ""
  · subst hempty
    rfl
  · rw [nameFor_of_ne_empty hempty, Name.segments_append, if_neg hempty]
    rfl

/-- **A package has one form in three shapes.** It is derived from a namespace and a suffix exactly if the
    suffix without the dots in front is a name, and the namespace too unless it is empty. Its segments are
    then those of the namespace and of the suffix, none of them empty or with a dot or slash in it. Dots and
    slashes between them give the two written forms, and each of these is cut into the segments again. More
    dots in front of the suffix change nothing, not even the name that is refused, and two packages of the
    same slashed form are one. -/
theorem forNamespace?_exact (namespaceName suffix : String) :
    ((∃ package, forNamespace? namespaceName suffix = some package) ↔
      Name.isQualified (Text.dropLeading '.' suffix) = true ∧
        (namespaceName = "" ∨ Name.isQualified namespaceName = true)) ∧
    (∀ package, forNamespace? namespaceName suffix = some package →
      package.segments =
          (if namespaceName = "" then [] else Text.split '.' namespaceName) ++
            Text.split '.' (Text.dropLeading '.' suffix) ∧
        (∀ segment ∈ package.segments,
          segment ≠ "" ∧ '.' ∉ segment.toList ∧ '/' ∉ segment.toList) ∧
        package.dotted = Text.join '.' package.segments ∧
        package.slashed = Text.join '/' package.segments ∧
        Text.split '.' package.dotted = package.segments ∧
        Text.split '/' package.slashed = package.segments) ∧
    (∀ dots : String, (∀ c ∈ dots.toList, c = '.') →
      nameFor namespaceName (dots ++ suffix) = nameFor namespaceName suffix ∧
        forNamespace? namespaceName (dots ++ suffix) = forNamespace? namespaceName suffix) ∧
    ∀ package, forNamespace? namespaceName suffix = some package →
      ∀ namespaceName' suffix' package', forNamespace? namespaceName' suffix' = some package' →
        package'.slashed = package.slashed → package' = package := by
  refine ⟨exists_forNamespace?_iff, fun package hpackage => ?_, fun dots hdots => ?_, ?_⟩
  · refine ⟨segments_of_forNamespace? hpackage, fun segment hsegment => ?_, dotted_eq, slashed_eq,
      rfl, split_slashed package⟩
    exact ⟨Name.ne_empty_of_isIdentifier (isIdentifier_of_mem_segments hsegment),
      dot_notMem_of_mem_segments hsegment, slash_notMem_of_mem_segments hsegment⟩
  · have hname : nameFor namespaceName (dots ++ suffix) = nameFor namespaceName suffix := by
      unfold nameFor
      rw [Text.dropLeading_append suffix hdots]
    exact ⟨hname, congrArg ofDotted? hname⟩
  · intro package _ _ _ package' _ hslashed
    exact eq_of_slashed_eq hslashed

/-- A suffix with dots in front, below a namespace of two segments. -/
theorem forNamespace?_exact_twoDots :
    ∃ package, forNamespace? "demo.checker" "..qual" = some package ∧
      package.segments = ["demo", "checker", "qual"] ∧ package.slashed = "demo/checker/qual" := by
  obtain ⟨hderived, hforms, -⟩ := forNamespace?_exact "demo.checker" "..qual"
  obtain ⟨package, hpackage⟩ := hderived.mpr ⟨by decide, Or.inr (by decide)⟩
  obtain ⟨hsegments, -, -, hslashed, -⟩ := hforms package hpackage
  have hthree : package.segments = ["demo", "checker", "qual"] := hsegments.trans (by decide)
  refine ⟨package, hpackage, hthree, ?_⟩
  rw [hslashed, hthree]
  decide

end Package

/-! ## Names in a package -/

/-- **A checker's type name is split like a descriptor's.** The segments before the last one, joined again,
    are what stands before the last dot. -/
theorem Checker.ofTypeName_eq (text : String) :
    Checker.ofTypeName text = ⟨Name.simple text, (Name.package? text).getD ""⟩ := by
  cases hpackage : Name.package? text with
  | none =>
    have hdot := Name.package?_eq_none_iff.mp hpackage
    have hsegments : Name.segments text = [text] := Text.split_eq_singleton hdot
    unfold Checker.ofTypeName
    rw [hsegments, Name.simple_eq_self hdot]
    rfl
  | some before =>
    obtain ⟨last, hlast, rfl⟩ := Name.package?_eq_some_iff.mp hpackage
    rw [ofTypeName_append_of_notMem before hlast, Name.simple_append before hlast]
    rfl

namespace ClassDescriptor

/-- The elements of a descriptor are checked after its name and have faults of their own. -/
theorem elementFault?_ne_unqualifiedName (className name : String) (before names : List String) :
    elementFault? className before names ≠ some (.unqualifiedName name) := by
  induction names generalizing before with
  | nil => simp [elementFault?]
  | cons first rest ih =>
    unfold elementFault?
    split
    · simp
    · split
      · simp
      · exact ih (first :: before)

/-- A descriptor passes the check of its name exactly if that is a qualified one. -/
theorem forall_fault?_ne_unqualifiedName_iff {d : ClassDescriptor} :
    (∀ name, d.fault? ≠ some (.unqualifiedName name)) ↔ Name.isQualified d.name = true := by
  unfold fault?
  by_cases hname : Name.isQualified d.name = true
  · rw [if_pos hname]
    exact iff_of_true (fun name => elementFault?_ne_unqualifiedName _ name _ _) hname
  · rw [if_neg hname]
    exact iff_of_false (fun h => h d.name rfl) hname

end ClassDescriptor

/-- **Qualifying a name and splitting it are inverse.** The package of a faultless descriptor's name is a
    package, and it qualifies the simple name to the whole one. A package qualifies a simple name to one
    that a descriptor may have, and that is split into the package and the simple name. And any text at all
    is split alike as the name of a descriptor and of a checker's type, where without a package the
    namespace is empty. -/
theorem Package.qualify_exact :
    (∀ (d : ClassDescriptor) (before : String), d.fault? = none → d.packageName? = some before →
      ∃ package, Package.ofDotted? before = some package ∧ package.qualify d.simpleName = d.name) ∧
    (∀ (package : Package) (simpleName : String), Name.isQualified simpleName = true →
      '.' ∉ simpleName.toList → ∀ d : ClassDescriptor, d.name = package.qualify simpleName →
        Name.isQualified d.name = true ∧ (∀ name, d.fault? ≠ some (.unqualifiedName name)) ∧
          d.packageName? = some package.dotted ∧ d.simpleName = simpleName) ∧
    ∀ (text : String) (d : ClassDescriptor), d.name = text →
      Checker.ofTypeName text = ⟨d.simpleName, d.packageName?.getD ""⟩ := by
  refine ⟨fun d before hfault hpackage => ?_, fun package simpleName hsimple hdot d hname => ?_, ?_⟩
  · have hwhole : before ++ "." ++ d.simpleName = d.name := Name.append_simple_of_package? hpackage
    have hqualified := d.isQualified_of_fault?_eq_none hfault
    rw [← hwhole, Name.isQualified_append_iff] at hqualified
    exact ⟨⟨before, hqualified.1⟩, Package.ofDotted?_eq_some_iff.mpr rfl, hwhole⟩
  · have hqualified : Name.isQualified d.name = true := by
      rw [hname]
      exact Name.isQualified_append_iff.mpr ⟨package.qualified, hsimple⟩
    refine ⟨hqualified, ClassDescriptor.forall_fault?_ne_unqualifiedName_iff.mpr hqualified, ?_, ?_⟩
    · unfold ClassDescriptor.packageName?
      rw [hname]
      exact Name.package?_append_eq_some_iff.mpr hdot
    · unfold ClassDescriptor.simpleName
      rw [hname]
      exact Name.simple_append package.dotted hdot
  · rintro text d rfl
    exact Checker.ofTypeName_eq d.name

/-- An annotation type of the package `demo.qual`, there and back. -/
theorem Package.qualify_exact_demo :
    (∃ package, Package.ofDotted? "demo.qual" = some package ∧
        package.qualify "Regex" = "demo.qual.Regex") ∧
      Checker.ofTypeName "demo.qual.Regex" = ⟨"Regex", "demo.qual"⟩ := by
  obtain ⟨hqualify, -, hchecker⟩ := Package.qualify_exact
  exact ⟨hqualify ⟨"demo.qual.Regex", .annotationType, some [.typeUse], none, [], []⟩ "demo.qual"
      (by decide +kernel) (by decide +kernel),
    hchecker "demo.qual.Regex" ⟨"demo.qual.Regex", .annotationType, none, none, [], []⟩ rfl⟩

end QualifierDiscovery
