import QualifierDiscovery.Files.Path
import QualifierDiscovery.Proofs.Files.Trees
import QualifierDiscovery.Proofs.Text.Pieces

/-!
# `Proofs.Files.Paths` — paths that are joined from names

A relative path put below a base is so many more pieces at its end, with a slash in between where there is
none yet (`split_join_relative`). From this follow the components of such a path (`components_joinAll`,
and `components_join_names` for any base, the empty one too), and that joining names one by one writes the
same text as joining them with slashes first (`joinAll_eq_join`).
-/

namespace QualifierDiscovery.Path

open Text (split)

/-! ## One name below a path -/

theorem isAbsolute_append {base rest : String} (hbase : base ≠ "") :
    isAbsolute (base ++ rest) = isAbsolute base := by
  obtain ⟨c, cs, hchars⟩ := List.exists_cons_of_ne_nil fun h => hbase (String.toList_eq_nil_iff.mp h)
  unfold isAbsolute Text.startsWith
  rw [String.toList_append, hchars]
  rfl

theorem isAbsolute_eq_false {path : String} (h : '/' ∉ path.toList) : isAbsolute path = false := by
  rw [Bool.eq_false_iff]
  intro habsolute
  obtain ⟨rest, rfl⟩ := Text.startsWith_iff.mp habsolute
  exact h (by simp [String.toList_append])

theorem endsWith_slash_iff {path : String} :
    Text.endsWith "/" path = true ↔ ∃ front, path = front ++ "/" :=
  Text.endsWith_iff

/-- What a relative path below a base is, as a text: a slash stands in between where the base does not
    end in one. -/
theorem join_eq {base path : String} (hbase : base ≠ "") (hpath : isAbsolute path = false) :
    join base path = if Text.endsWith "/" base then base ++ path else base ++ "/" ++ path := by
  unfold join
  have hempty : base.isEmpty = false := by
    rw [Bool.eq_false_iff, ne_eq, String.isEmpty_iff]
    exact hbase
  rw [hpath, hempty]
  rfl

theorem join_ne_empty {base path : String} (hbase : base ≠ "") (hpath : isAbsolute path = false) :
    join base path ≠ "" := by
  rw [join_eq hbase hpath]
  intro h
  have hchars := congrArg String.toList h
  split at hchars <;>
    simp only [String.toList_append, String.toList_empty, List.append_eq_nil_iff] at hchars
  · exact hbase (String.toList_eq_nil_iff.mp hchars.1)
  · exact hbase (String.toList_eq_nil_iff.mp hchars.1.1)

theorem isAbsolute_join {base path : String} (hbase : base ≠ "") (hpath : isAbsolute path = false) :
    isAbsolute (join base path) = isAbsolute base := by
  rw [join_eq hbase hpath]
  split
  · exact isAbsolute_append hbase
  · rw [String.append_assoc]
    exact isAbsolute_append hbase

/-- A slash at the end leaves an empty piece behind it. -/
theorem split_append_slash (front : String) : split '/' (front ++ "/") = split '/' front ++ [""] := by
  have hempty : split '/' "" = [""] := Text.split_eq_singleton (by simp)
  rw [← hempty, ← Text.split_append_separator front "", String.append_empty]
  rfl

/-- **The pieces of a relative path follow those of the base**, less the empty one that a slash at the end of
    the base leaves. -/
theorem split_join_relative {base path : String} (hbase : base ≠ "") (hpath : isAbsolute path = false) :
    ∃ front, front ≠ [] ∧ split '/' (join base path) = front ++ split '/' path ∧
      (split '/' base = front ∨ split '/' base = front ++ [""]) := by
  rw [join_eq hbase hpath]
  by_cases hslash : Text.endsWith "/" base = true
  · obtain ⟨front, rfl⟩ := endsWith_slash_iff.mp hslash
    refine ⟨split '/' front, Text.split_ne_nil, ?_, Or.inr (split_append_slash front)⟩
    rw [if_pos hslash, show ("/" : String) = String.singleton '/' from rfl, Text.split_append_separator]
  · refine ⟨split '/' base, Text.split_ne_nil, ?_, Or.inl rfl⟩
    rw [if_neg hslash, show ("/" : String) = String.singleton '/' from rfl, Text.split_append_separator]

/-- **A name below a path is one more piece.** -/
theorem split_join_path {base name : String} (hbase : base ≠ "") (hname : '/' ∉ name.toList) :
    ∃ front, front ≠ [] ∧ split '/' (join base name) = front ++ [name] ∧
      (split '/' base = front ∨ split '/' base = front ++ [""]) := by
  obtain ⟨front, hfront, hjoin, hsplit⟩ := split_join_relative hbase (isAbsolute_eq_false hname)
  rw [Text.split_eq_singleton hname] at hjoin
  exact ⟨front, hfront, hjoin, hsplit⟩

/-- The pieces of a path that are not empty. -/
def pieces (path : String) : List String := (split '/' path).filter (· != "")

/-- A name below a path is one more of the pieces that are not empty. -/
theorem pieces_join {base name : String} (hbase : base ≠ "") (hempty : name ≠ "")
    (hname : '/' ∉ name.toList) : pieces (join base name) = pieces base ++ [name] := by
  obtain ⟨front, -, hjoin, hsplit⟩ := split_join_path hbase hname
  have hbasePieces : pieces base = front.filter (· != "") := by
    unfold pieces
    rcases hsplit with hsplit | hsplit
    · rw [hsplit]
    · rw [hsplit, List.filter_append, show [""].filter (· != "") = [] from rfl, List.append_nil]
  rw [hbasePieces]
  unfold pieces
  rw [hjoin, List.filter_append, List.filter_cons_of_pos (by simpa using hempty), List.filter_nil]

/-! ## Components -/

/-- A text that stands for itself as a component of a path. -/
def IsName (name : String) : Prop :=
  name ≠ "" ∧ name ≠ "." ∧ name ≠ ".." ∧ '/' ∉ name.toList

/-- Names of entries are such texts, those that do not hold a NUL. -/
theorem isEntryName_iff_isName {name : String} :
    isEntryName name = true ↔ IsName name ∧ '\x00' ∉ name.toList := by
  rw [isEntryName_iff, IsName]
  tauto

theorem isName_of_entryNames {names : List String} (h : ∀ name ∈ names, isEntryName name = true) :
    ∀ name ∈ names, IsName name :=
  fun name hname => (isEntryName_iff_isName.mp (h name hname)).1

theorem IsName.componentOf?_eq {name : String} (h : IsName name) :
    componentOf? name = some (.normal name) := by
  obtain ⟨hempty, hdot, hdots, -⟩ := h
  unfold componentOf?
  rw [if_neg (by rintro (h | h); exacts [hempty h, hdot h]), if_neg hdots]

/-- Names with slashes in between are a relative path. -/
theorem isAbsolute_join_names {names : List String} (hne : names ≠ [])
    (hnames : ∀ name ∈ names, IsName name) : isAbsolute (Text.join '/' names) = false := by
  obtain ⟨name, rest, rfl⟩ := List.exists_cons_of_ne_nil hne
  obtain ⟨hempty, -, -, hslash⟩ := hnames name List.mem_cons_self
  by_cases hrest : rest = []
  · rw [hrest, Text.join_singleton]
    exact isAbsolute_eq_false hslash
  · rw [Text.join_cons hrest, String.append_assoc, isAbsolute_append hempty]
    exact isAbsolute_eq_false hslash

/-- **The components of a relative path follow those of the base.** -/
theorem components_join_relative {base path : String} (hbase : base ≠ "")
    (hpath : isAbsolute path = false) :
    components (join base path) = components base ++ (split '/' path).filterMap componentOf? := by
  obtain ⟨front, hfront, hjoin, hsplit⟩ := split_join_relative hbase hpath
  obtain ⟨first, rest, rfl⟩ := List.exists_cons_of_ne_nil hfront
  have hbaseComponents : components base =
      (if isAbsolute base then [.root]
        else if first = "." then [.current]
        else (componentOf? first).toList) ++ rest.filterMap componentOf? := by
    unfold components
    rcases hsplit with hsplit | hsplit
    · rw [hsplit]
    · -- the empty piece after a slash at the end is no component
      rw [hsplit, List.cons_append]
      simp only [List.filterMap_append]
      rw [show [""].filterMap componentOf? = [] from rfl, List.append_nil]
  rw [hbaseComponents]
  unfold components
  rw [hjoin, List.cons_append, isAbsolute_join hbase hpath]
  simp only [List.filterMap_append, List.append_assoc]

/-- A relative path that does not begin with a dot has the components of its pieces. -/
theorem components_relative {path first : String} {rest : List String}
    (hsplit : split '/' path = first :: rest) (hpath : isAbsolute path = false) (hfirst : first ≠ ".") :
    components path = (split '/' path).filterMap componentOf? := by
  unfold components
  simp only [hsplit, hpath, Bool.false_eq_true, if_false, if_neg hfirst]
  cases hcomponent : componentOf? first with
  | none => rw [List.filterMap_cons_none hcomponent]; rfl
  | some component => rw [List.filterMap_cons_some hcomponent]; rfl

/-- Names with slashes in between are as many components more, below any base. -/
theorem components_join_names {names : List String} (base : String) (hne : names ≠ [])
    (hnames : ∀ name ∈ names, IsName name) :
    components (join base (Text.join '/' names)) = components base ++ names.map .normal := by
  have hsplit : split '/' (Text.join '/' names) = names :=
    Text.split_join (fun name hname => (hnames name hname).2.2.2) hne
  have hcomponents : names.filterMap componentOf? = names.map .normal := by
    rw [← List.filterMap_eq_map]
    exact List.filterMap_congr fun name hname => (hnames name hname).componentOf?_eq
  have hrelative := isAbsolute_join_names hne hnames
  by_cases hbase : base = ""
  · obtain ⟨first, rest, rfl⟩ := List.exists_cons_of_ne_nil hne
    have hjoin : join "" (Text.join '/' (first :: rest)) = Text.join '/' (first :: rest) := by
      rw [join, hrelative]
      exact String.empty_append
    rw [hbase, hjoin, components_relative hsplit hrelative (hnames first List.mem_cons_self).2.1, hsplit,
      hcomponents]
    rfl
  · rw [components_join_relative hbase hrelative, hsplit, hcomponents]

/-- A name below a path is one more component. -/
theorem components_join {base name : String} (hbase : base ≠ "") (hname : isEntryName name = true) :
    components (join base name) = components base ++ [.normal name] := by
  obtain ⟨hisName, -⟩ := isEntryName_iff_isName.mp hname
  have hslash : '/' ∉ name.toList := hisName.2.2.2
  rw [components_join_relative hbase (isAbsolute_eq_false hslash), Text.split_eq_singleton hslash,
    List.filterMap_cons_some hisName.componentOf?_eq, List.filterMap_nil]

/-- The name below a path is the last component. -/
theorem fileName?_join {base name : String} (hbase : base ≠ "") (hname : isEntryName name = true) :
    fileName? (join base name) = some name := by
  unfold fileName?
  rw [components_join hbase hname, List.getLast?_concat]

/-- Names below a path are as many components more. -/
theorem components_joinAll {base : String} {names : List String} (hbase : base ≠ "")
    (hnames : ∀ name ∈ names, isEntryName name = true) :
    components (joinAll base names) = components base ++ names.map .normal := by
  unfold joinAll
  induction names generalizing base with
  | nil => simp
  | cons name rest ih =>
    have hname := hnames name List.mem_cons_self
    have hslash : '/' ∉ name.toList := (isEntryName_iff.mp hname).2.2.2.1
    rw [List.foldl_cons, ih (join_ne_empty hbase (isAbsolute_eq_false hslash))
      fun other hother => hnames other (List.mem_cons_of_mem _ hother),
      components_join hbase hname, List.map_cons, List.append_assoc, List.singleton_append]

theorem joinAll_ne_empty {base : String} {names : List String} (hbase : base ≠ "")
    (hnames : ∀ name ∈ names, '/' ∉ name.toList) : joinAll base names ≠ "" := by
  induction names generalizing base with
  | nil => exact hbase
  | cons name rest ih =>
    apply ih
    · exact join_ne_empty hbase (isAbsolute_eq_false (hnames name List.mem_cons_self))
    · exact fun other hother => hnames other (List.mem_cons_of_mem _ hother)

/-- What follows the same components are the same names. -/
theorem names_eq_of_append_map_normal_eq {base : List Component} {names others : List String}
    (h : base ++ names.map .normal = base ++ others.map .normal) : names = others :=
  List.map_injective_iff.mpr (fun _ _ hsame => Component.normal.inj hsame) (List.append_cancel_left h)

/-- Different names lead along different paths. -/
theorem joinAll_injective {base : String} {names others : List String} (hbase : base ≠ "")
    (hnames : ∀ name ∈ names, isEntryName name = true)
    (hothers : ∀ name ∈ others, isEntryName name = true)
    (h : joinAll base names = joinAll base others) : names = others := by
  have hcomponents := congrArg components h
  rw [components_joinAll hbase hnames, components_joinAll hbase hothers] at hcomponents
  exact names_eq_of_append_map_normal_eq hcomponents

/-! ## The text of a joined path -/

theorem not_endsWith_slash_join {base name : String} (hbase : base ≠ "")
    (hname : isEntryName name = true) : Text.endsWith "/" (join base name) = false := by
  obtain ⟨hempty, -, -, hslash, -⟩ := isEntryName_iff.mp hname
  obtain ⟨front, -, hjoin, -⟩ := split_join_path hbase hslash
  rw [Bool.eq_false_iff]
  intro hends
  obtain ⟨before, hbefore⟩ := endsWith_slash_iff.mp hends
  rw [hbefore, split_append_slash] at hjoin
  exact hempty (List.singleton_inj.mp (List.append_inj_right' hjoin rfl)).symm

theorem joinAll_concat (base : String) (names : List String) (name : String) :
    joinAll base (names ++ [name]) = join (joinAll base names) name := by
  unfold joinAll
  rw [List.foldl_append, List.foldl_cons, List.foldl_nil]

/-- **Joining names one by one writes the slashes between them.** -/
theorem joinAll_eq_join {base : String} {names : List String} (hbase : base ≠ "") (hne : names ≠ [])
    (hnames : ∀ name ∈ names, isEntryName name = true) :
    joinAll base names = join base (Text.join '/' names) := by
  induction names generalizing base with
  | nil => exact absurd rfl hne
  | cons name rest ih =>
    have hname := hnames name List.mem_cons_self
    have hslash : isAbsolute name = false :=
      isAbsolute_eq_false (isEntryName_iff.mp hname).2.2.2.1
    by_cases hrest : rest = []
    · rw [hrest, Text.join_singleton]
      rfl
    · have hothers : ∀ other ∈ rest, isEntryName other = true :=
        fun other hother => hnames other (List.mem_cons_of_mem _ hother)
      show joinAll (join base name) rest = _
      rw [ih (join_ne_empty hbase hslash) hrest hothers,
        join_eq (join_ne_empty hbase hslash) (isAbsolute_join_names hrest (isName_of_entryNames hothers)),
        not_endsWith_slash_join hbase hname,
        join_eq hbase (isAbsolute_join_names hne (isName_of_entryNames hnames)), join_eq hbase hslash,
        Text.join_cons hrest, show ("/" : String) = String.singleton '/' from rfl]
      by_cases hend : Text.endsWith (String.singleton '/') base = true
      · simp only [hend, if_true, Bool.false_eq_true, if_false, String.append_assoc]
      · simp only [if_neg hend, Bool.false_eq_true, if_false, String.append_assoc]

/-- Several names below a path end in the last of them. -/
theorem fileName?_join_names {base last : String} {front : List String} (hbase : base ≠ "")
    (hnames : ∀ name ∈ front ++ [last], isEntryName name = true) :
    fileName? (join base (Text.join '/' (front ++ [last]))) = some last := by
  have hlast := hnames last (List.mem_append_right _ List.mem_cons_self)
  have hfront : ∀ name ∈ front, '/' ∉ name.toList := fun name hname =>
    (isEntryName_iff.mp (hnames name (List.mem_append_left _ hname))).2.2.2.1
  rw [← joinAll_eq_join hbase (List.append_ne_nil_of_right_ne_nil _ (List.cons_ne_nil _ _)) hnames,
    joinAll_concat, fileName?_join (joinAll_ne_empty hbase hfront) hlast]

/-- A path below a base ends as it ends alone. -/
theorem endsWith_join {base path ending : String} (hbase : base ≠ "") (hpath : isAbsolute path = false)
    (h : Text.endsWith ending path = true) : Text.endsWith ending (join base path) = true := by
  obtain ⟨stem, rfl⟩ := Text.endsWith_iff.mp h
  rw [join_eq hbase hpath]
  apply Text.endsWith_iff.mpr
  split
  · exact ⟨base ++ stem, String.append_assoc.symm⟩
  · exact ⟨base ++ "/" ++ stem, String.append_assoc.symm⟩

end QualifierDiscovery.Path
