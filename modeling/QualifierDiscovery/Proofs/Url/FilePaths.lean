import QualifierDiscovery.Proofs.Text.Pieces
import QualifierDiscovery.Url.FileUrl

/-!
# `Proofs.Url.FilePaths` — the path that a file URL names

However a URL is written, the normal form of its path has a segment (`normalSegments_ne_nil`), and the path
that is read off it has a slash before each segment. So what a URL names is an absolute path
(`isAbsolute_of_toPath?`), and never the empty text.
-/

namespace QualifierDiscovery.Url

/-! ## Segments -/

/-- One segment goes on to the others with some that are kept before them. After the last one there is
    always one kept: the segment itself, or an empty one where it was dots. -/
theorem resolveDots_cons (done : List (List Char)) (segment : List Char) (rest : List (List Char)) :
    ∃ kept, resolveDots done (segment :: rest) = resolveDots kept rest ∧ (rest = [] → kept ≠ []) := by
  rw [resolveDots]
  by_cases hdots : isDoubleDot segment = true
  · rw [if_pos hdots]
    refine ⟨_, rfl, ?_⟩
    rintro rfl
    exact List.append_ne_nil_of_right_ne_nil _ (by simp)
  · rw [if_neg hdots]
    by_cases hdot : isDot segment = true
    · rw [if_pos hdot]
      refine ⟨_, rfl, ?_⟩
      rintro rfl
      exact List.append_ne_nil_of_right_ne_nil _ (by simp)
    · rw [if_neg hdot]
      exact ⟨_, rfl, fun _ => List.append_ne_nil_of_right_ne_nil _ (List.cons_ne_nil _ _)⟩

theorem resolveDots_ne_nil {done segments : List (List Char)} (h : segments ≠ [] ∨ done ≠ []) :
    resolveDots done segments ≠ [] := by
  induction segments generalizing done with
  | nil =>
    unfold resolveDots
    exact h.resolve_left fun hnil => hnil rfl
  | cons segment rest ih =>
    obtain ⟨kept, hstep, hlast⟩ := resolveDots_cons done segment rest
    rw [hstep]
    apply ih
    by_cases hrest : rest = []
    · exact Or.inr (hlast hrest)
    · exact Or.inl hrest

theorem normalSegments_ne_nil (text : List Char) : normalSegments text ≠ [] := by
  unfold normalSegments
  apply resolveDots_ne_nil
  left
  split
  · exact List.cons_ne_nil _ _
  · exact List.splitOnP_ne_nil _ _

theorem dropEmptyStart_ne_nil {segments : List (List Char)} (h : segments ≠ []) :
    dropEmptyStart segments ≠ [] := by
  induction segments with
  | nil => exact absurd rfl h
  | cons first rest ih =>
    cases rest with
    | nil => exact h
    | cons second more =>
      unfold dropEmptyStart
      split
      · exact ih (List.cons_ne_nil _ _)
      · exact h

theorem ne_nil_of_fileSegments? {text : List Char} {segments : List (List Char)}
    (h : fileSegments? text = some segments) : segments ≠ [] := by
  unfold fileSegments? at h
  split at h
  · split at h
    · -- with or without a host, the segments are the normal ones of some text
      dsimp only at h
      split at h
      · exact Option.some.inj h ▸ normalSegments_ne_nil _
      · split at h
        · exact Option.some.inj h ▸ normalSegments_ne_nil _
        · split at h
          · exact Option.some.inj h ▸ normalSegments_ne_nil _
          · exact absurd h (by simp)
    · exact Option.some.inj h ▸ normalSegments_ne_nil _
  · exact Option.some.inj h ▸ normalSegments_ne_nil _

/-! ## Paths -/

/-- Bytes that begin with a slash are read as a text that begins with one. -/
theorem isAbsolute_decodeLossy (bytes : List UInt8) :
    Path.isAbsolute (Text.decodeLossy (0x2F :: bytes)) = true := by
  have hstep : Text.utf8Step 0x2F bytes = .char '/' bytes := rfl
  have hchars : (Text.decodeLossy (0x2F :: bytes)).toList =
      '/' :: Text.decodeLossyWithin bytes.length bytes := by
    unfold Text.decodeLossy
    rw [String.toList_ofList, List.length_cons, Text.decodeLossyWithin, hstep]
  unfold Path.isAbsolute Text.startsWith
  rw [hchars]
  rfl

theorem isAbsolute_pathOfSegments {segments : List (List Char)} (h : segments ≠ []) :
    Path.isAbsolute (pathOfSegments segments) = true := by
  obtain ⟨first, rest, hsegments⟩ := List.exists_cons_of_ne_nil (dropEmptyStart_ne_nil h)
  unfold pathOfSegments
  rw [hsegments, List.flatMap_cons]
  exact isAbsolute_decodeLossy _

/-- **A URL names an absolute path**, if it names one at all. -/
theorem isAbsolute_of_toPath? {text path : String} (h : toPath? text = some path) :
    Path.isAbsolute path = true := by
  unfold toPath? at h
  split at h
  · split at h
    · obtain ⟨segments, hsegments, rfl⟩ := Option.map_eq_some_iff.mp h
      exact isAbsolute_pathOfSegments (ne_nil_of_fileSegments? hsegments)
    · exact absurd h (by simp)
  · exact absurd h (by simp)

theorem ne_empty_of_toPath? {text path : String} (h : toPath? text = some path) : path ≠ "" := by
  rintro rfl
  have habsolute := isAbsolute_of_toPath? h
  exact absurd habsolute (by decide)

end QualifierDiscovery.Url
