import QualifierDiscovery.Proofs.Files.AbsolutePaths

/-!
# `Proofs.Files.Places` — absolute forms are the texts of places

The absolute form of a path is a slash before each of some names, perhaps with another slash at its end
(`Spells`). So is everything that is joined from it and further names (`Spells.joinAll`), and the components
are the root and the names (`Spells.components_eq`). Only a path that begins with two slashes keeps both
(`spells_of_absolute?`).
-/

namespace QualifierDiscovery

namespace Path

open Text (split)

/-! ## Steps -/

/-- A text that stands as a step of a path with no dots in it: a name, or the double dot. -/
structure IsStep (name : String) : Prop where
  ne_empty : name ≠ ""
  ne_dot : name ≠ "."
  noSlash : '/' ∉ name.toList

theorem IsName.isStep {name : String} (h : IsName name) : IsStep name := ⟨h.1, h.2.1, h.2.2.2⟩

theorem IsStep.isName {name : String} (h : IsStep name) (hdots : name ≠ "..") : IsName name :=
  ⟨h.ne_empty, h.ne_dot, hdots, h.noSlash⟩

/-- The double dot is a component of its own, any other step is a name. -/
theorem IsStep.componentOf?_eq {name : String} (h : IsStep name) :
    componentOf? name = some (if name = ".." then .parent else .normal name) := by
  unfold componentOf?
  rw [if_neg (not_or.mpr ⟨h.ne_empty, h.ne_dot⟩)]
  split <;> rfl

theorem isStep_of_mem_names {path name : String} (h : name ∈ names path) : IsStep name := by
  obtain ⟨hempty, hslash, -⟩ := mem_names h
  rw [names_eq] at h
  have hdot : name ≠ "." := by simpa using (List.mem_filter.mp h).2
  exact ⟨hempty, hdot, hslash⟩

/-! ## Texts of places -/

/-- A path has a slash before each of the names, and perhaps one at its end. The root has the one slash. -/
structure Spells (path : String) (names : List String) : Prop where
  isStep : ∀ name ∈ names, IsStep name
  text : path = ofNames names ++ "/" ∨ names ≠ [] ∧ path = ofNames names

theorem ofNames_append (names more : List String) :
    ofNames (names ++ more) = ofNames names ++ ofNames more := by
  apply String.toList_injective
  unfold ofNames
  rw [String.toList_append, String.toList_ofList, String.toList_ofList, String.toList_ofList,
    List.flatMap_append]

theorem ofNames_singleton (name : String) : ofNames [name] = "/" ++ name := by
  apply String.toList_injective
  unfold ofNames
  rw [String.toList_append, String.toList_ofList, List.flatMap_singleton]
  rfl

theorem spells_root : Spells "/" [] := ⟨fun _ h => absurd h List.not_mem_nil, Or.inl rfl⟩

theorem spells_ofNames {names : List String} (hne : names ≠ []) (h : ∀ name ∈ names, IsStep name) :
    Spells (ofNames names) names := ⟨h, Or.inr ⟨hne, rfl⟩⟩

/-- The text of a place ends in its last name. -/
theorem endsWith_ofNames {names : List String} (hne : names ≠ []) (h : ∀ name ∈ names, IsStep name) :
    Text.endsWith "/" (ofNames names) = false := by
  obtain ⟨front, last, rfl⟩ := (List.eq_nil_or_concat names).resolve_left hne
  rw [List.concat_eq_append] at h ⊢
  have hlast := h last (List.mem_append_right _ List.mem_cons_self)
  rw [Bool.eq_false_iff]
  intro hends
  have hchar : (ofNames (front ++ [last])).toList.getLast? = some '/' :=
    Text.getLast?_of_endsWith hends (by decide)
  rw [ofNames_append, ofNames_singleton, String.toList_append, String.toList_append] at hchar
  have hchars : last.toList ≠ [] := fun hnil => hlast.ne_empty (String.toList_eq_nil_iff.mp hnil)
  rw [List.getLast?_append_of_ne_nil _ (List.append_ne_nil_of_right_ne_nil _ hchars),
    List.getLast?_append_of_ne_nil _ hchars] at hchar
  exact hlast.noSlash (List.mem_of_getLast? hchar)

namespace Spells

variable {path name : String} {names more : List String}

theorem ne_empty (h : Spells path names) : path ≠ "" := by
  rintro rfl
  rcases h.text with htext | ⟨hne, htext⟩
  · exact absurd (congrArg String.toList htext) (by simp [String.toList_append])
  · obtain ⟨first, rest, rfl⟩ := List.exists_cons_of_ne_nil hne
    exact absurd (congrArg String.toList htext) (by simp [ofNames])

theorem append (h : Spells path names) (hmore : ∀ name ∈ more, IsStep name) :
    ∀ name ∈ names ++ more, IsStep name :=
  fun name hname => (List.mem_append.mp hname).elim (h.isStep name) (hmore name)

/-- **A step below a place** is joined with one slash before it. -/
theorem join_eq (h : Spells path names) (hname : IsStep name) :
    join path name = ofNames (names ++ [name]) := by
  rw [Path.join_eq h.ne_empty (isAbsolute_eq_false hname.noSlash), ofNames_append, ofNames_singleton]
  rcases h.text with rfl | ⟨hne, rfl⟩
  · rw [if_pos (endsWith_slash_iff.mpr ⟨_, rfl⟩), String.append_assoc]
  · rw [if_neg (Bool.eq_false_iff.mp (endsWith_ofNames hne h.isStep)), String.append_assoc]

theorem join (h : Spells path names) (hname : IsStep name) : Spells (join path name) (names ++ [name]) := by
  rw [h.join_eq hname]
  exact spells_ofNames (List.append_ne_nil_of_right_ne_nil _ (List.cons_ne_nil _ _))
    (h.append fun other hother => List.mem_singleton.mp hother ▸ hname)

theorem joinAll (h : Spells path names) (hmore : ∀ name ∈ more, IsStep name) :
    Spells (joinAll path more) (names ++ more) := by
  induction more generalizing path names with
  | nil =>
    rw [List.append_nil]
    exact h
  | cons name rest ih =>
    have hjoined := h.join (hmore name List.mem_cons_self)
    have hrest := ih hjoined fun other hother => hmore other (List.mem_cons_of_mem _ hother)
    rw [List.append_assoc] at hrest
    exact hrest

/-- **Steps below a place** are joined with one slash before each of them. -/
theorem joinAll_eq (h : Spells path names) (hne : more ≠ []) (hmore : ∀ name ∈ more, IsStep name) :
    Path.joinAll path more = ofNames (names ++ more) := by
  obtain ⟨front, last, rfl⟩ := (List.eq_nil_or_concat more).resolve_left hne
  rw [List.concat_eq_append] at hmore ⊢
  have hfront := h.joinAll fun name hname => hmore name (List.mem_append_left _ hname)
  rw [joinAll_concat, hfront.join_eq (hmore last (List.mem_append_right _ List.mem_cons_self)),
    List.append_assoc]

/-- The empty text below a place leaves it with a slash at its end. -/
theorem join_empty (h : Spells path names) : Spells (Path.join path "") names := by
  rw [Path.join_eq h.ne_empty (by decide)]
  refine ⟨h.isStep, Or.inl ?_⟩
  rcases h.text with rfl | ⟨hne, rfl⟩
  · rw [if_pos (endsWith_slash_iff.mpr ⟨_, rfl⟩), String.append_empty]
  · rw [if_neg (Bool.eq_false_iff.mp (endsWith_ofNames hne h.isStep)), String.append_empty]

theorem isAbsolute_eq (h : Spells path names) : isAbsolute path = true := by
  apply Text.startsWith_iff.mpr
  cases names with
  | nil =>
    rcases h.text with rfl | ⟨hne, -⟩
    · exact ⟨"", rfl⟩
    · exact absurd rfl hne
  | cons first rest =>
    have hfirst : ofNames (first :: rest) = "/" ++ (first ++ ofNames rest) := by
      rw [← List.singleton_append, ofNames_append, ofNames_singleton, String.append_assoc]
    rcases h.text with rfl | ⟨-, rfl⟩
    · exact ⟨first ++ ofNames rest ++ "/", by rw [hfirst, String.append_assoc]⟩
    · exact ⟨first ++ ofNames rest, hfirst⟩

/-- **The components of a place** are the root and those of its steps. -/
theorem components_eq (h : Spells path names) :
    components path = .root :: names.map fun name => if name = ".." then .parent else .normal name := by
  have hslash : ∀ piece ∈ "" :: names, '/' ∉ piece.toList := by
    intro piece hpiece
    rcases List.mem_cons.mp hpiece with rfl | hname
    · simp
    · exact (h.isStep piece hname).noSlash
  have hsplit : split '/' (ofNames names) = "" :: names := by
    rw [ofNames_eq_join]
    exact Text.split_join hslash (List.cons_ne_nil _ _)
  -- a slash at the end leaves an empty piece, which is no component
  have hpieces : ∃ closing, split '/' path = "" :: (names ++ closing) ∧
      closing.filterMap componentOf? = [] := by
    rcases h.text with rfl | ⟨-, rfl⟩
    · exact ⟨[""], by rw [split_append_slash, hsplit]; rfl, rfl⟩
    · exact ⟨[], by rw [hsplit, List.append_nil], rfl⟩
  obtain ⟨closing, hpath, hclosing⟩ := hpieces
  have hsteps : names.filterMap componentOf? =
      names.map fun name => if name = ".." then .parent else .normal name := by
    rw [← List.filterMap_eq_map]
    exact List.filterMap_congr fun name hname => (h.isStep name hname).componentOf?_eq
  unfold components
  simp only [hpath, h.isAbsolute_eq, if_true, List.filterMap_append, hclosing, hsteps, List.append_nil]
  rfl

/-- Without a double dot among the components, the steps are names. -/
theorem isName_of_notMem (h : Spells path names) (hparent : Component.parent ∉ components path) :
    ∀ name ∈ names, IsName name := by
  intro name hname
  apply (h.isStep name hname).isName
  rintro rfl
  apply hparent
  rw [h.components_eq]
  exact List.mem_cons_of_mem _ (List.mem_map.mpr ⟨_, hname, if_pos rfl⟩)

end Spells

/-- The components of a place are the root and its names. -/
theorem components_ofNames {names : List String} (hne : names ≠ []) (h : ∀ name ∈ names, IsName name) :
    components (ofNames names) = .root :: names.map .normal := by
  rw [(spells_ofNames hne fun name hname => (h name hname).isStep).components_eq]
  congr 1
  exact List.map_congr_left fun name hname => if_neg (h name hname).2.2.1

end Path

/-! ## Absolute forms -/

namespace FileSystem

open QualifierDiscovery.Path (Spells names IsStep)

variable {fs : FileSystem} {path full : String}

/-- What is joined to a path stands behind it. -/
theorem startsWith_join {start base name : String} (h : Text.startsWith start base = true) (hbase : base ≠ "")
    (hname : Path.isAbsolute name = false) : Text.startsWith start (Path.join base name) = true := by
  obtain ⟨rest, rfl⟩ := Text.startsWith_iff.mp h
  rw [Path.join_eq hbase hname]
  apply Text.startsWith_iff.mpr
  split
  · exact ⟨rest ++ name, String.append_assoc⟩
  · exact ⟨rest ++ "/" ++ name, by simp only [String.append_assoc]⟩

theorem startsWith_joinAll {start base : String} {names : List String} (h : Text.startsWith start base = true)
    (hbase : base ≠ "") (hnames : ∀ name ∈ names, '/' ∉ name.toList) :
    Text.startsWith start (Path.joinAll base names) = true := by
  induction names generalizing base with
  | nil => exact h
  | cons name rest ih =>
    have hname := Path.isAbsolute_eq_false (hnames name List.mem_cons_self)
    exact ih (startsWith_join h hbase hname) (Path.join_ne_empty hbase hname)
      fun other hother => hnames other (List.mem_cons_of_mem _ hother)

/-- The working directory is the place it stands for. -/
theorem spells_workingDirectory (fs : FileSystem) : Spells fs.workingDirectory fs.workingPlace := by
  unfold workingDirectory
  split
  · next hempty =>
    rw [List.isEmpty_iff.mp hempty]
    exact Path.spells_root
  · next hne =>
    exact Path.spells_ofNames (fun hnil => hne (List.isEmpty_iff.mpr hnil))
      fun name hname => (Path.isName_of_entryNames fs.isEntryName_of_mem_workingPlace name hname).isStep

/-- **An absolute form is the text of a place**: the steps of the path below its start. Only one with two
    slashes at its start is not. -/
theorem spells_of_absolute? (hfull : Path.absolute? fs.workingDirectory path = some full)
    (hslashes : Text.startsWith "//" full = false) : Spells full (fs.startOf path ++ names path) := by
  have hsteps : ∀ name ∈ names path, IsStep name := fun name hname => Path.isStep_of_mem_names hname
  have hjoined : full = Path.joinAll (Path.absoluteStart fs.workingDirectory path) (names path) ∨
      full = Path.join (Path.joinAll (Path.absoluteStart fs.workingDirectory path) (names path)) "" := by
    unfold Path.absolute? at hfull
    split at hfull
    · exact absurd hfull (by simp)
    · rw [← Option.some.inj hfull]
      split
      · exact Or.inr rfl
      · exact Or.inl rfl
  have hstart : Spells (Path.absoluteStart fs.workingDirectory path) (fs.startOf path) := by
    by_cases hdouble : (Text.startsWith "//" path && !Text.startsWith "///" path) = true
    · -- both slashes would stand at the start of the absolute form, too
      have hkept : Path.absoluteStart fs.workingDirectory path = "//" := if_pos hdouble
      have hnames : ∀ name ∈ names path, '/' ∉ name.toList := fun name hname => (hsteps name hname).noSlash
      have hbegins : Text.startsWith "//" (Path.joinAll "//" (names path)) = true :=
        startsWith_joinAll (by decide) (by decide) hnames
      rw [hkept] at hjoined
      have hfalse : Text.startsWith "//" full = true := by
        rcases hjoined with rfl | rfl
        · exact hbegins
        · exact startsWith_join hbegins (Path.joinAll_ne_empty (by decide) hnames) (by decide)
      rw [hslashes] at hfalse
      exact absurd hfalse (by decide)
    · unfold Path.absoluteStart startOf
      rw [if_neg hdouble]
      cases habsolute : Path.isAbsolute path with
      | true => exact Path.spells_root
      | false => exact spells_workingDirectory fs
  rcases hjoined with rfl | rfl
  · exact hstart.joinAll hsteps
  · exact (hstart.joinAll hsteps).join_empty

end FileSystem

end QualifierDiscovery
