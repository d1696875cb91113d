import Mathlib.Data.List.TakeWhile
import QualifierDiscovery.Package
import QualifierDiscovery.Proofs.Files.Trees
import QualifierDiscovery.Proofs.Text.Pieces

/-!
# `Proofs.Names` — dotted names and packages

A dotted name is its identifiers joined by dots, and an identifier holds no dot, no slash and no NUL.
So a package has one form for each separator, and its segments can stand as entries of directories.
A dotted text is a name exactly if both its parts are (`isQualified_append_iff`). What stands before the
last dot of a qualified name is the package exactly if the rest has no dot.
-/

namespace QualifierDiscovery

namespace Name

/-! ## Identifiers -/

theorem continuesIdentifier_of_startsIdentifier {c : Char} (h : startsIdentifier c = true) :
    continuesIdentifier c = true := by
  unfold startsIdentifier at h
  unfold continuesIdentifier
  simp only [Bool.or_eq_true] at h ⊢
  rcases h with (h | h) | h
  · exact Or.inl (Or.inl (Or.inl h))
  · exact Or.inl (Or.inr h)
  · exact Or.inr h

theorem continuesIdentifier_of_mem {text : String} {c : Char} (h : isIdentifier text = true)
    (hc : c ∈ text.toList) : continuesIdentifier c = true := by
  unfold isIdentifier at h
  cases hchars : text.toList with
  | nil => simp [hchars] at h
  | cons first rest =>
    simp only [hchars, Bool.and_eq_true, List.all_eq_true] at h hc
    rcases List.mem_cons.mp hc with rfl | hrest
    · exact continuesIdentifier_of_startsIdentifier h.1
    · exact h.2 c hrest

/-- A character that no identifier goes on with is in none. -/
theorem notMem_of_isIdentifier {text : String} {c : Char} (h : isIdentifier text = true)
    (hc : continuesIdentifier c = false) : c ∉ text.toList := by
  intro hmem
  rw [continuesIdentifier_of_mem h hmem] at hc
  exact absurd hc (by decide)

theorem ne_empty_of_isIdentifier {text : String} (h : isIdentifier text = true) : text ≠ "" := by
  rintro rfl
  exact absurd h (by decide)

/-- A qualified name is made of identifiers, of which there is a last one. -/
theorem exists_identifiers {name : String} (h : isQualified name = true) :
    ∃ dirs last, (∀ piece ∈ dirs ++ [last], isIdentifier piece = true) ∧
      name = Text.join '.' (dirs ++ [last]) := by
  obtain ⟨dirs, last, hsegments⟩ : ∃ dirs last, segments name = dirs ++ [last] :=
    ⟨_, _, (List.dropLast_concat_getLast Text.split_ne_nil).symm⟩
  refine ⟨dirs, last, fun piece hpiece => ?_, ?_⟩
  · exact List.all_eq_true.mp h piece (hsegments ▸ hpiece)
  · rw [← hsegments]
    exact (Text.join_split name).symm

/-! ## The two parts of a dotted text -/

theorem segments_append (before after : String) :
    segments (before ++ "." ++ after) = segments before ++ segments after :=
  Text.split_append_separator before after

/-- **A dotted text is a name exactly if both its parts are.** -/
theorem isQualified_append_iff {before after : String} :
    isQualified (before ++ "." ++ after) = true ↔
      isQualified before = true ∧ isQualified after = true := by
  unfold isQualified
  rw [segments_append, List.all_append, Bool.and_eq_true]

theorem ne_dot_of_mem_reverse {text : String} (h : '.' ∉ text.toList) :
    ∀ c ∈ text.toList.reverse, (c != '.') = true := by
  intro c hc
  exact bne_iff_ne.mpr fun hdot => h (List.mem_reverse.mp (hdot ▸ hc))

/-- **The package of a text.** It is what stands before a dot with no dot after it. -/
theorem package?_eq_some_iff {text before : String} :
    package? text = some before ↔
      ∃ last, '.' ∉ last.toList ∧ text = before ++ "." ++ last := by
  have hcut := List.takeWhile_append_dropWhile (p := (· != '.')) (l := text.toList.reverse)
  unfold package?
  constructor
  · intro h
    cases hdrop : text.toList.reverse.dropWhile (· != '.') with
    | nil => simp [hdrop] at h
    | cons dot rest =>
      have hdot : dot = '.' := by
        have hhead := List.head_dropWhile_not (· != '.') (l := text.toList.reverse)
          (by rw [hdrop]; exact List.cons_ne_nil _ _)
        simpa [hdrop] using hhead
      simp only [hdrop, Option.some.injEq] at h
      refine ⟨String.ofList (text.toList.reverse.takeWhile (· != '.')).reverse, ?_, ?_⟩
      · rw [String.toList_ofList, List.mem_reverse]
        intro hmem
        have hpass := List.all_eq_true.mp (List.all_takeWhile (p := (· != '.'))) '.' hmem
        exact absurd hpass (by decide)
      · apply String.toList_injective
        rw [hdrop, hdot] at hcut
        rw [← h, String.toList_append, String.toList_append, String.toList_ofList,
          String.toList_ofList, ← List.reverse_inj]
        simpa using hcut.symm
  · rintro ⟨last, hlast, rfl⟩
    have hreverse : (before ++ "." ++ last).toList.reverse =
        last.toList.reverse ++ '.' :: before.toList.reverse := by
      simp [String.toList_append]
    have hdrop : (before ++ "." ++ last).toList.reverse.dropWhile (· != '.') =
        '.' :: before.toList.reverse := by
      rw [hreverse, List.dropWhile_append_of_pos (ne_dot_of_mem_reverse hlast)]
      rfl
    rw [hdrop]
    simp

/-- What follows a package and a dot has no dot exactly if the package is the whole text's. -/
theorem package?_append_eq_some_iff {before after : String} :
    package? (before ++ "." ++ after) = some before ↔ '.' ∉ after.toList := by
  rw [package?_eq_some_iff]
  constructor
  · rintro ⟨last, hlast, h⟩
    have hchars := congrArg String.toList h
    simp only [String.toList_append] at hchars
    rw [List.append_cancel_left hchars]
    exact hlast
  · intro h
    exact ⟨after, h, rfl⟩

theorem package?_eq_none_iff {text : String} : package? text = none ↔ '.' ∉ text.toList := by
  rw [Option.eq_none_iff_forall_ne_some]
  constructor
  · intro hnone hdot
    -- cut at the last dot
    obtain ⟨after, before, hreverse, hafter⟩ :=
      List.eq_append_cons_of_mem (List.mem_reverse.mpr hdot)
    refine hnone (String.ofList before.reverse) (package?_eq_some_iff.mpr
      ⟨String.ofList after.reverse, ?_, String.toList_injective ?_⟩)
    · rw [String.toList_ofList, List.mem_reverse]
      exact hafter
    · rw [← List.reverse_inj, hreverse]
      simp [String.toList_append]
  · rintro hdot before hsome
    obtain ⟨last, -, rfl⟩ := package?_eq_some_iff.mp hsome
    exact hdot (by simp [String.toList_append])

/-- A text without dots is its own simple name. -/
theorem simple_eq_self {text : String} (h : '.' ∉ text.toList) : simple text = text := by
  unfold simple
  rw [List.takeWhile_eq_self_iff.mpr (ne_dot_of_mem_reverse h), List.reverse_reverse, String.ofList_toList]

/-- What follows a dot, without one of its own, is the simple name. -/
theorem simple_append (before : String) {last : String} (h : '.' ∉ last.toList) :
    simple (before ++ "." ++ last) = last := by
  have hreverse : (before ++ "." ++ last).toList.reverse =
      last.toList.reverse ++ '.' :: before.toList.reverse := by
    simp [String.toList_append]
  unfold simple
  rw [hreverse, List.takeWhile_append_of_pos (ne_dot_of_mem_reverse h), List.takeWhile_cons_of_neg (by decide),
    List.append_nil, List.reverse_reverse, String.ofList_toList]

/-- What a text is cut into at its last dot gives the text again. -/
theorem append_simple_of_package? {text before : String} (h : package? text = some before) :
    before ++ "." ++ simple text = text := by
  obtain ⟨last, hlast, rfl⟩ := package?_eq_some_iff.mp h
  rw [simple_append before hlast]

end Name

/-- An identifier can stand as an entry of a directory. -/
theorem isEntryName_of_isIdentifier {name : String} (h : Name.isIdentifier name = true) :
    isEntryName name = true := by
  refine isEntryName_iff.mpr ⟨Name.ne_empty_of_isIdentifier h, ?_, ?_,
    Name.notMem_of_isIdentifier h (by decide), Name.notMem_of_isIdentifier h (by decide)⟩
  · rintro rfl
    exact absurd h (by decide)
  · rintro rfl
    exact absurd h (by decide)

/-! ## Packages -/

namespace Package

variable {package : Package}

theorem segments_ne_nil : package.segments ≠ [] := Text.split_ne_nil

theorem isIdentifier_of_mem_segments {segment : String} (h : segment ∈ package.segments) :
    Name.isIdentifier segment = true :=
  List.all_eq_true.mp package.qualified segment h

/-- A segment has neither of the two separators. -/
theorem dot_notMem_of_mem_segments {segment : String} (h : segment ∈ package.segments) :
    '.' ∉ segment.toList :=
  Name.notMem_of_isIdentifier (isIdentifier_of_mem_segments h) (by decide)

theorem slash_notMem_of_mem_segments {segment : String} (h : segment ∈ package.segments) :
    '/' ∉ segment.toList :=
  Name.notMem_of_isIdentifier (isIdentifier_of_mem_segments h) (by decide)

theorem isEntryName_of_mem_segments {segment : String} (h : segment ∈ package.segments) :
    isEntryName segment = true :=
  isEntryName_of_isIdentifier (isIdentifier_of_mem_segments h)

theorem dotted_eq : package.dotted = Text.join '.' package.segments :=
  (Text.join_split package.dotted).symm

theorem slashed_eq : package.slashed = Text.join '/' package.segments := by
  unfold slashed
  rw [dotted_eq, Text.replaceChar_join fun _ => dot_notMem_of_mem_segments]

theorem entryStart_eq : package.entryStart = Text.join '/' package.segments ++ "/" := by
  unfold entryStart
  rw [slashed_eq]

/-- **Beginning with the package is beginning with its segments.** A test on the text of an entry's name
    compares whole components. -/
theorem eq_entryStart_append_iff {text rest : String} :
    text = package.entryStart ++ rest ↔
      Text.split '/' text = package.segments ++ Text.split '/' rest := by
  rw [entryStart_eq]
  exact Text.append_separator_eq_iff (fun _ => slash_notMem_of_mem_segments) segments_ne_nil

end Package

end QualifierDiscovery
