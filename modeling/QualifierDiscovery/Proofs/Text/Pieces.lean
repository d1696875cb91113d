import Mathlib.Data.List.Basic
import QualifierDiscovery.Text.Pieces

/-!
# `Proofs.Text.Pieces` — cutting and joining are inverse

Paths, entry names of archives and dotted names are texts cut at a separator. Everything that is said
about such texts is said about the lists of their pieces, and this file carries facts across:

* `join_split` / `split_join` — a text is its pieces joined, and pieces without the separator come
  back out of their join;
* `append_separator_eq_iff` — a text begins with joined pieces and a separator exactly if its own
  pieces begin with those pieces. This is what makes a test on texts a comparison of components;
* `stripStart?_eq_some_iff`, `stripEnd?_eq_some_iff`, `startsWith_iff`, `endsWith_iff` — the tests and
  the stripping functions as equations between texts;
* `lines_flatMap` — lines that are written come back when they are read.
-/

namespace QualifierDiscovery.Text

/-! ## Starts and ends -/

theorem stripStart?_eq_some_iff {start text rest : String} :
    stripStart? start text = some rest ↔ text = start ++ rest := by
  unfold stripStart?
  rw [Option.map_eq_some_iff]
  constructor
  · rintro ⟨cs, hcs, rfl⟩
    have happ := List.isPrefixOf?_eq_some_iff_append_eq.mp hcs
    apply String.toList_injective
    rw [String.toList_append, String.toList_ofList, happ]
  · intro h
    refine ⟨rest.toList, ?_, String.ofList_toList⟩
    rw [List.isPrefixOf?_eq_some_iff_append_eq, h, String.toList_append]

theorem stripEnd?_eq_some_iff {ending text stem : String} :
    stripEnd? ending text = some stem ↔ text = stem ++ ending := by
  unfold stripEnd?
  rw [Option.map_eq_some_iff]
  constructor
  · rintro ⟨cs, hcs, rfl⟩
    have happ := List.isSuffixOf?_eq_some_iff_append_eq.mp hcs
    apply String.toList_injective
    rw [String.toList_append, String.toList_ofList, happ]
  · intro h
    refine ⟨stem.toList, ?_, String.ofList_toList⟩
    rw [List.isSuffixOf?_eq_some_iff_append_eq, h, String.toList_append]

theorem startsWith_iff {start text : String} :
    startsWith start text = true ↔ ∃ rest, text = start ++ rest := by
  unfold startsWith
  rw [List.isPrefixOf_iff_prefix]
  constructor
  · rintro ⟨cs, hcs⟩
    refine ⟨String.ofList cs, String.toList_injective ?_⟩
    rw [String.toList_append, String.toList_ofList, hcs]
  · rintro ⟨rest, rfl⟩
    exact ⟨rest.toList, String.toList_append.symm⟩

theorem endsWith_iff {ending text : String} :
    endsWith ending text = true ↔ ∃ stem, text = stem ++ ending := by
  unfold endsWith
  rw [List.isSuffixOf_iff_suffix]
  constructor
  · rintro ⟨cs, hcs⟩
    refine ⟨String.ofList cs, String.toList_injective ?_⟩
    rw [String.toList_append, String.toList_ofList, hcs]
  · rintro ⟨stem, rfl⟩
    exact ⟨stem.toList, String.toList_append.symm⟩

/-- A text has the last character of what it ends with. -/
theorem getLast?_of_endsWith {ending text : String} (h : endsWith ending text = true)
    (hne : ending ≠ "") : text.toList.getLast? = ending.toList.getLast? := by
  obtain ⟨stem, rfl⟩ := endsWith_iff.mp h
  rw [String.toList_append]
  exact List.getLast?_append_of_ne_nil _ fun hnil => hne (String.toList_eq_nil_iff.mp hnil)

/-- More of the characters that are dropped from the front change nothing. -/
theorem dropLeading_append {c : Char} {leading : String} (text : String)
    (h : ∀ x ∈ leading.toList, x = c) : dropLeading c (leading ++ text) = dropLeading c text := by
  unfold dropLeading
  rw [String.toList_append, List.dropWhile_append_of_pos fun x hx => beq_iff_eq.mpr (h x hx)]

/-! ## Pieces -/

variable {c : Char}

theorem toList_join {pieces : List String} :
    (join c pieces).toList = [c].intercalate (pieces.map String.toList) :=
  String.toList_ofList

theorem split_ne_nil {text : String} : split c text ≠ [] := by
  unfold split
  rw [ne_eq, List.map_eq_nil_iff]
  exact List.splitOn_ne_nil c text.toList

theorem notMem_of_mem_splitOn {chars cs : List Char} (h : cs ∈ chars.splitOn c) : c ∉ cs := by
  induction chars generalizing cs with
  | nil =>
    rw [List.splitOn_nil, List.mem_singleton] at h
    rw [h]
    exact List.not_mem_nil
  | cons x xs ih =>
    rw [List.splitOn_cons_eq_if_modifyHead] at h
    by_cases hx : x = c
    · rw [if_pos (beq_iff_eq.mpr hx)] at h
      rcases List.mem_cons.mp h with hnil | htail
      · rw [hnil]
        exact List.not_mem_nil
      · exact ih htail
    · rw [if_neg (fun hb => hx (beq_iff_eq.mp hb))] at h
      obtain ⟨head, tail, hsplit⟩ := List.exists_cons_of_ne_nil (List.splitOn_ne_nil c xs)
      rw [hsplit, List.modifyHead_cons] at h
      rw [hsplit] at ih
      rcases List.mem_cons.mp h with hhead | htail
      · rw [hhead, List.mem_cons, not_or]
        exact ⟨fun hc => hx hc.symm, ih List.mem_cons_self⟩
      · exact ih (List.mem_cons_of_mem _ htail)

/-- A piece does not hold the separator. -/
theorem notMem_of_mem_split {text piece : String} (h : piece ∈ split c text) :
    c ∉ piece.toList := by
  obtain ⟨cs, hcs, rfl⟩ := List.mem_map.mp h
  rw [String.toList_ofList]
  exact notMem_of_mem_splitOn hcs

/-- **Joining the pieces gives the text back.** -/
theorem join_split (text : String) : join c (split c text) = text := by
  apply String.toList_injective
  rw [toList_join]
  unfold split
  rw [List.map_map, show String.toList ∘ String.ofList = id from
    funext fun _ => String.toList_ofList, List.map_id]
  exact List.intercalate_splitOn c

/-- **Pieces without the separator come back out of their join.** -/
theorem split_join {pieces : List String} (hpieces : ∀ piece ∈ pieces, c ∉ piece.toList)
    (hne : pieces ≠ []) : split c (join c pieces) = pieces := by
  unfold split
  rw [toList_join, List.splitOn_intercalate c]
  · rw [List.map_map, show String.ofList ∘ String.toList = id from
      funext fun _ => String.ofList_toList, List.map_id]
  · intro cs hcs
    obtain ⟨piece, hpiece, rfl⟩ := List.mem_map.mp hcs
    exact hpieces piece hpiece
  · rwa [ne_eq, List.map_eq_nil_iff]

theorem split_eq_singleton {text : String} (h : c ∉ text.toList) : split c text = [text] := by
  unfold split
  rw [List.splitOn_eq_singleton h, List.map_singleton, String.ofList_toList]

/-- Texts with a separator between them are cut there. -/
theorem split_append_separator (before after : String) :
    split c (before ++ String.singleton c ++ after) = split c before ++ split c after := by
  unfold split
  rw [String.toList_append, String.toList_append, String.toList_singleton, List.append_assoc,
    List.singleton_append, List.splitOn_append_cons_self, List.map_append]

theorem join_singleton (piece : String) : join c [piece] = piece := by
  apply String.toList_injective
  rw [toList_join, List.map_singleton, List.intercalate_singleton]

theorem join_cons {piece : String} {pieces : List String} (hne : pieces ≠ []) :
    join c (piece :: pieces) = piece ++ String.singleton c ++ join c pieces := by
  apply String.toList_injective
  rw [toList_join, List.map_cons, List.intercalate_cons_of_ne_nil (by simpa using hne),
    String.toList_append, String.toList_append, String.toList_singleton, toList_join]

/-- Each piece after the first is written with a separator in front of it. -/
theorem toList_join_cons (first : String) (rest : List String) :
    (join c (first :: rest)).toList = first.toList ++ rest.flatMap fun piece => c :: piece.toList := by
  induction rest generalizing first with
  | nil => rw [join_singleton, List.flatMap_nil, List.append_nil]
  | cons next more ih =>
    rw [join_cons (List.cons_ne_nil _ _), String.toList_append, String.toList_append,
      String.toList_singleton, ih, List.flatMap_cons, List.append_assoc, List.singleton_append,
      List.cons_append]

theorem join_append {before after : List String} (hbefore : before ≠ []) (hafter : after ≠ []) :
    join c (before ++ after) = join c before ++ String.singleton c ++ join c after := by
  induction before with
  | nil => exact absurd rfl hbefore
  | cons piece rest ih =>
    by_cases hrest : rest = []
    · subst hrest
      rw [List.singleton_append, join_cons hafter, join_singleton]
    · rw [List.cons_append, join_cons (by simp [hrest]), ih hrest, join_cons hrest]
      simp only [String.append_assoc]

/-- The text of the pieces holds their characters. -/
theorem mem_toList_join {x : Char} {piece : String} {pieces : List String} (hpiece : piece ∈ pieces)
    (hx : x ∈ piece.toList) : x ∈ (join c pieces).toList := by
  induction pieces with
  | nil => exact absurd hpiece List.not_mem_nil
  | cons first rest ih =>
    by_cases hrest : rest = []
    · subst hrest
      rw [join_singleton, ← List.mem_singleton.mp hpiece]
      exact hx
    · rw [join_cons hrest, String.toList_append, String.toList_append]
      rcases List.mem_cons.mp hpiece with rfl | htail
      · exact List.mem_append_left _ (List.mem_append_left _ hx)
      · exact List.mem_append_right _ (ih htail)

/-- A piece of a text has no characters but the text's. -/
theorem mem_toList_of_mem_split {x : Char} {text piece : String} (hpiece : piece ∈ split c text)
    (hx : x ∈ piece.toList) : x ∈ text.toList := by
  rw [← join_split (c := c) text]
  exact mem_toList_join hpiece hx

/-- A character other than the separator is in one of the pieces. -/
theorem exists_mem_split_of_mem {x : Char} {text : String} (hx : x ∈ text.toList) (hne : x ≠ c) :
    ∃ piece ∈ split c text, x ∈ piece.toList := by
  obtain ⟨first, rest, hsplit⟩ := List.exists_cons_of_ne_nil (@split_ne_nil c text)
  rw [← join_split (c := c) text, hsplit, toList_join_cons] at hx
  rw [hsplit]
  rcases List.mem_append.mp hx with hfirst | hrest
  · exact ⟨first, List.mem_cons_self, hfirst⟩
  · obtain ⟨piece, hpiece, hx⟩ := List.mem_flatMap.mp hrest
    exact ⟨piece, List.mem_cons_of_mem _ hpiece, (List.mem_cons.mp hx).resolve_left hne⟩

/-- What is put behind the last piece is put behind the whole text. -/
theorem join_concat_append (pieces : List String) (last ending : String) :
    join c (pieces ++ [last ++ ending]) = join c (pieces ++ [last]) ++ ending := by
  by_cases hpieces : pieces = []
  · subst hpieces
    rw [List.nil_append, List.nil_append, join_singleton, join_singleton]
  · rw [join_append hpieces (by simp), join_append hpieces (by simp), join_singleton, join_singleton]
    simp only [String.append_assoc]

/-- **Beginning with joined pieces is beginning with pieces.** A text that begins with `pieces` joined
    and a separator has those pieces first and goes on with the pieces of what follows; there is no
    other way to have them first and anything after them. -/
theorem append_separator_eq_iff {pieces : List String} {rest text : String}
    (hpieces : ∀ piece ∈ pieces, c ∉ piece.toList) (hne : pieces ≠ []) :
    text = join c pieces ++ String.singleton c ++ rest ↔
      split c text = pieces ++ split c rest := by
  constructor
  · rintro rfl
    rw [split_append_separator, split_join hpieces hne]
  · intro h
    rw [← join_split (c := c) text, h, join_append hne split_ne_nil, join_split]

/-- Replacing the separator of joined pieces joins them with the new one. -/
theorem replaceChar_join {old new : Char} {pieces : List String}
    (hpieces : ∀ piece ∈ pieces, old ∉ piece.toList) :
    replaceChar old new (join old pieces) = join new pieces := by
  have hpiece : ∀ piece ∈ pieces,
      (piece.toList.map fun x => if x = old then new else x) = piece.toList := by
    intro piece hmem
    refine (List.map_congr_left fun x hx => ?_).trans (List.map_id _)
    exact if_neg fun hold : x = old => hpieces piece hmem (hold ▸ hx)
  apply String.toList_injective
  unfold replaceChar
  rw [String.toList_ofList, toList_join, toList_join]
  induction pieces with
  | nil => rfl
  | cons piece rest ih =>
    have hrest := ih (fun p hp => hpieces p (List.mem_cons_of_mem _ hp))
      (fun p hp => hpiece p (List.mem_cons_of_mem _ hp))
    have hfirst := hpiece piece List.mem_cons_self
    cases rest with
    | nil => simpa using hfirst
    | cons next more =>
      simp only [List.map_cons, List.intercalate_cons_cons, List.map_append] at hrest ⊢
      rw [hfirst, hrest]
      simp

/-! ## Lines -/

/-- Lists that are closed by a separator each are cut at it again, with an empty rest. -/
theorem splitOn_flatMap_concat {lists : List (List Char)} (h : ∀ cs ∈ lists, c ∉ cs) :
    (lists.flatMap fun cs => cs ++ [c]).splitOn c = lists ++ [[]] := by
  have hjoined : (lists.flatMap fun cs => cs ++ [c]) = [c].intercalate (lists ++ [[]]) := by
    induction lists with
    | nil => rfl
    | cons first rest ih =>
      obtain ⟨second, more, hrest⟩ := List.exists_cons_of_ne_nil (List.concat_ne_nil [] rest)
      rw [List.flatMap_cons, ih fun cs hcs => h cs (List.mem_cons_of_mem _ hcs), List.cons_append,
        hrest, List.intercalate_cons_cons]
  rw [hjoined]
  apply List.splitOn_intercalate
  · intro cs hcs
    rcases List.mem_append.mp hcs with hlist | hempty
    · exact h cs hlist
    · rw [List.mem_singleton.mp hempty]
      exact List.not_mem_nil
  · simp

/-- **Lines that are written one after the other are read back**, if none of them holds a line end. -/
theorem lines_flatMap {lines : List String}
    (h : ∀ line ∈ lines, '\n' ∉ line.toList ∧ '\r' ∉ line.toList) :
    Text.lines (String.ofList (lines.flatMap fun line => line.toList ++ ['\n'])) = lines := by
  have hcut : ((lines.map String.toList).flatMap fun cs => cs ++ ['\n']).splitOn '\n' =
      lines.map String.toList ++ [[]] := by
    apply splitOn_flatMap_concat
    intro cs hcs
    obtain ⟨line, hline, rfl⟩ := List.mem_map.mp hcs
    exact (h line hline).1
  rw [List.flatMap_map] at hcut
  unfold Text.lines
  rw [String.toList_ofList, hcut, List.reverse_append, List.reverse_singleton]
  show (lines.map String.toList).reverse.reverse.map _ = lines
  rw [List.reverse_reverse, List.map_map]
  conv_rhs => rw [← List.map_id lines]
  apply List.map_congr_left
  intro line hline
  -- a carriage return would be dropped, and there is none
  have hlast : line.toList.getLast? ≠ some '\r' := by
    intro hlast
    exact (h line hline).2 (List.mem_of_getLast? hlast)
  show String.ofList (if line.toList.getLast? = some '\r' then line.toList.dropLast else line.toList) =
    line
  rw [if_neg hlast, String.ofList_toList]

end QualifierDiscovery.Text
