import QualifierDiscovery.Proofs.BundledListing
import QualifierDiscovery.Proofs.PackageForms

/-!
# `Proofs.EntryPrefixes` — a test on an entry's text compares components

An archive is asked for a package by what its entries' names begin with. The segments of a package are not
empty and have no slash, and the text that is asked for ends in one. So the answer is about the components
of a name: they begin with the segments, and go on after them (`startsWith_entryStart_iff`). An entry that
lies directly in a package lies directly in no other (`eq_of_directly`).
-/

namespace QualifierDiscovery

namespace Package

variable {package other : Package} {entry rest : String}

/-! ## Components -/

/-- The slash behind the last segment makes sure that another component follows, though perhaps an empty
    one. -/
theorem startsWith_entryStart_iff :
    Text.startsWith package.entryStart entry = true ↔
      ∃ below, below ≠ [] ∧ Text.split '/' entry = package.segments ++ below := by
  rw [Text.startsWith_iff]
  constructor
  · rintro ⟨rest, hrest⟩
    exact ⟨Text.split '/' rest, Text.split_ne_nil, eq_entryStart_append_iff.mp hrest⟩
  · rintro ⟨below, hbelow, hsplit⟩
    -- the components below are those of the text that they make when joined
    have hpieces : Text.split '/' (Text.join '/' below) = below := by
      apply Text.split_join _ hbelow
      intro piece hpiece
      exact Text.notMem_of_mem_split (hsplit ▸ List.mem_append_right _ hpiece)
    exact ⟨Text.join '/' below, eq_entryStart_append_iff.mpr (hpieces.symm ▸ hsplit)⟩

/-- A rest without slashes is one component. -/
theorem stripStart?_entryStart_iff :
    Text.stripStart? package.entryStart entry = some rest ∧ '/' ∉ rest.toList ↔
      Text.split '/' entry = package.segments ++ [rest] := by
  rw [Text.stripStart?_eq_some_iff, eq_entryStart_append_iff]
  constructor
  · rintro ⟨hsplit, hslash⟩
    rwa [Text.split_eq_singleton hslash] at hsplit
  · intro hsplit
    have hslash : '/' ∉ rest.toList :=
      Text.notMem_of_mem_split (hsplit ▸ List.mem_append_right _ List.mem_cons_self)
    exact ⟨by rw [Text.split_eq_singleton hslash, hsplit], hslash⟩

/-! ## Other packages -/

/-- Packages of the same segments are one. -/
theorem eq_of_segments_eq (h : package.segments = other.segments) : package = other := by
  apply eq_of_slashed_eq
  rw [slashed_eq, slashed_eq, h]

/-- What lies directly in a package begins with every package that this one is or lies below, and with no
    other. -/
theorem startsWith_entryStart_iff_of_directly (h : Text.split '/' entry = other.segments ++ [rest]) :
    Text.startsWith package.entryStart entry = true ↔ package.segments <+: other.segments := by
  rw [startsWith_entryStart_iff, h]
  constructor
  · rintro ⟨below, hbelow, hsegments⟩
    obtain ⟨front, last, rfl⟩ := (List.eq_nil_or_concat below).resolve_left hbelow
    rw [List.concat_eq_append, ← List.append_assoc] at hsegments
    exact ⟨front, (List.append_inj_left' hsegments rfl).symm⟩
  · rintro ⟨front, hfront⟩
    exact ⟨front ++ [rest], by simp, by rw [← hfront, List.append_assoc]⟩

/-- **An entry lies directly in one package at most.** -/
theorem eq_of_directly {last : String} (h : Text.split '/' entry = package.segments ++ [last])
    (hother : Text.split '/' entry = other.segments ++ [rest]) : other = package :=
  eq_of_segments_eq (List.append_inj_left' (hother.symm.trans h) rfl)

end Package

/-! ## Archives -/

variable {fs : FileSystem} {path : String} {names : List String}

theorem archiveHolds_iff_of_names (package : Package) (hnames : archiveNames fs path = .ok names) :
    archiveHolds fs package path = true ↔
      ∃ entry ∈ names, ∃ below, below ≠ [] ∧ Text.split '/' entry = package.segments ++ below := by
  simp only [archiveHolds_iff, hnames, Except.ok.injEq, Package.startsWith_entryStart_iff]
  constructor
  · rintro ⟨_, rfl, hentry⟩
    exact hentry
  · exact fun hentry => ⟨names, rfl, hentry⟩

theorem exists_namesInArchive (layout : Layout) (package : Package)
    (hnames : archiveNames fs path = .ok names) :
    ∃ stems, namesInArchive fs layout package path = .ok stems ∧
      ∀ stem, stem ∈ stems ↔ ∃ entry ∈ names, ∃ rest,
        Text.split '/' entry = package.segments ++ [rest] ∧ layout.compiledStem? rest = some stem := by
  refine ⟨Text.sortedSet (names.filterMap (bundledName? layout package)), ?_, fun stem => ?_⟩
  · rw [namesInArchive, hnames]
  · simp only [Text.mem_sortedSet, List.mem_filterMap, bundledName?_eq_some_iff]

/-- **Archive entries are told apart by their components.** An entry begins with a package exactly if its
    components are the segments and at least one more, and it does so with a rest that has no slash exactly
    if that rest is the one component more. By the first an archive is said to hold the package, by the
    second its classes are listed. So an entry that lies directly in one package begins with another only
    if the one lies below the other, and it gives a class to no other package. -/
theorem entryStart_exact (package : Package) :
    (∀ entry, Text.startsWith package.entryStart entry = true ↔
      ∃ below, below ≠ [] ∧ Text.split '/' entry = package.segments ++ below) ∧
    (∀ entry rest, Text.stripStart? package.entryStart entry = some rest ∧ '/' ∉ rest.toList ↔
      Text.split '/' entry = package.segments ++ [rest]) ∧
    (∀ fs path names, archiveNames fs path = .ok names →
      (archiveHolds fs package path = true ↔
        ∃ entry ∈ names, ∃ below, below ≠ [] ∧ Text.split '/' entry = package.segments ++ below) ∧
      ∀ layout, ∃ stems, namesInArchive fs layout package path = .ok stems ∧
        ∀ stem, stem ∈ stems ↔ ∃ entry ∈ names, ∃ rest,
          Text.split '/' entry = package.segments ++ [rest] ∧
            layout.compiledStem? rest = some stem) ∧
    ∀ (other : Package) entry rest, Text.split '/' entry = other.segments ++ [rest] →
      (Text.startsWith package.entryStart entry = true ↔ package.segments <+: other.segments) ∧
      ∀ layout stem, bundledName? layout package entry = some stem → other = package := by
  refine ⟨fun _ => Package.startsWith_entryStart_iff, fun _ _ => Package.stripStart?_entryStart_iff, ?_, ?_⟩
  · intro fs path names hnames
    exact ⟨archiveHolds_iff_of_names package hnames,
      fun layout => exists_namesInArchive layout package hnames⟩
  · intro other entry rest hother
    refine ⟨Package.startsWith_entryStart_iff_of_directly hother, fun layout stem hstem => ?_⟩
    obtain ⟨last, hlast, -⟩ := bundledName?_eq_some_iff.mp hstem
    exact Package.eq_of_directly hlast hother

/-- A package whose last segment is longer is another package, and an archive of one class is read. -/
theorem entryStart_exact_qualifiers :
    Text.split '/' "demo/qualifiers/A.class" = ["demo", "qualifiers"] ++ ["A.class"] ∧
      Text.startsWith "demo/qual/" "demo/qualifiers/A.class" ≠ true ∧
      archiveNames oneClassTwice "/j.jar" = .ok ["qual/A.class"] ∧
      archiveHolds oneClassTwice ⟨"qual", by decide⟩ "/j.jar" = true := by
  have hsplit : Text.split '/' "demo/qualifiers/A.class" = ["demo", "qualifiers"] ++ ["A.class"] := by
    decide
  obtain ⟨-, -, -, hother⟩ := entryStart_exact ⟨"demo.qual", by decide⟩
  have hstart := (hother ⟨"demo.qualifiers", by decide⟩ _ _ hsplit).1
  have hnames : archiveNames oneClassTwice "/j.jar" = .ok ["qual/A.class"] := by
    have hread : oneClassTwice.readFile "/j.jar" = .ok oneClassArchive := rfl
    have hentries : Archive.entryNames? oneClassArchive = some ["qual/A.class"] := by decide +kernel
    exact archiveNames_eq_ok_iff.mpr ⟨_, hread, hentries⟩
  obtain ⟨-, -, harchives, -⟩ := entryStart_exact ⟨"qual", by decide⟩
  refine ⟨hsplit, fun h => absurd (hstart.mp h) (by decide), hnames, ?_⟩
  exact (harchives _ _ _ hnames).1.mpr ⟨_, List.mem_cons_self, ["A.class"], by decide, by decide⟩

end QualifierDiscovery
