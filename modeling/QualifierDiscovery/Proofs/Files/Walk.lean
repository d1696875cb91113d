import Mathlib.Data.Finset.Card
import Mathlib.Data.Set.Finite.Lattice
import QualifierDiscovery.Files.Walk
import QualifierDiscovery.Proofs.Files.Resolution
import QualifierDiscovery.Proofs.Text.Order

/-!
# `Proofs.Files.Walk` — what a walk lists

A walk keeps the names that lead from its start to where it is and the directories on the way. Which paths it
takes can be said without it: the names lead through directories that can be listed, and where one of them
is a link, it leads into a directory that is not on the path yet (`Entered`). The walk lists the files in the directories that are
entered so, each once and in the order of the paths (`mem_filesBelow_iff`, `increasing_filesBelow`).

Real subdirectories are entered even if the path has come through them before, by a link to what is above.
So neither the depth of a path nor the directories on it measure what is left of the walk. What does is
`remaining`: a link spends one of the directories that are not on the path, of which there are finitely
many, and buys the depth of the tree; a subdirectory spends one of that depth (`Opens.remaining_lt`).

## Contents
- **Paths of a walk.** `Entered` and `IsListed`; `entered_concat_iff` for one name more.
- **Steps.** `Visits` — where a walk is; `Opens` — what it goes on to; `Visits.induction` over the measure.
- **Bounds.** `Entered.length_lt` and `finite_entered` — no path is longer than a bound, and there are
  finitely many.
- **Listings.** `Lists` — all files of the paths that go on from one, in order; `Visits.lists_filesIn`
  for the walk from there.
- **The whole walk.** `mem_filesBelow_iff`, `increasing_filesBelow`; `filesWithin_eq_filesBelow` — a larger
  budget changes nothing.
-/

namespace QualifierDiscovery.FileSystem

variable {fs : FileSystem} {start name : String} {trail names : List String} {here there : Place}
  {opened : List Place} {entries below : List (String × Node)} {node : Node}

/-! ## Paths of a walk -/

/-- The path leads to the directory at this place. -/
def LeadsInto (fs : FileSystem) (path : String) (place : Place) : Prop :=
  ∃ entries, fs.resolve path = .ok (.present place (.directory entries))

/-- The path leads to a directory in which a link has this name. -/
def HasLink (fs : FileSystem) (path name : String) : Prop :=
  ∃ place entries target, fs.resolve path = .ok (.present place (.directory entries)) ∧
    (name, Node.link target) ∈ entries

/-- The names lead down from the start through directories that can be listed, and where one of them is a
    link, it leads into a directory that the path before it has not come through. -/
structure Entered (fs : FileSystem) (start : String) (names : List String) : Prop where
  entryNames : ∀ name ∈ names, isEntryName name = true
  listable : ∀ before, before <+: names → fs.Listable (Path.joinAll start before)
  noReturn : ∀ before name, before ++ [name] <+: names → fs.HasLink (Path.joinAll start before) name →
    ∀ earlier, earlier <+: before → ∀ place, fs.LeadsInto (Path.joinAll start earlier) place →
      ¬ fs.LeadsInto (Path.joinAll start (before ++ [name])) place

/-- The names below the path of the start lead to a file. -/
structure IsFileBelow (fs : FileSystem) (start : String) (names : List String) : Prop where
  ne_nil : names ≠ []
  entryNames : ∀ name ∈ names, isEntryName name = true
  isFile : fs.isFile (Path.joinAll start names) = true

/-- The names lead to a file, and those before the last lead through directories and never back. -/
structure IsListed (fs : FileSystem) (start : String) (names : List String) : Prop
    extends IsFileBelow fs start names where
  entered : fs.Entered start names.dropLast

theorem leadsInto_iff {path : String} {place : Place}
    (h : fs.resolve path = .ok (.present here (.directory entries))) :
    fs.LeadsInto path place ↔ place = here := by
  unfold LeadsInto
  rw [h]
  simp [eq_comm]

/-- A directory is no file. -/
theorem not_isFile_of_isDirectory {path : String} (h : fs.isDirectory path = true) :
    fs.isFile path ≠ true := by
  intro hfile
  obtain ⟨place, entries, hdirectory⟩ := isDirectory_iff.mp h
  obtain ⟨place', content, hcontent⟩ := isFile_iff.mp hfile
  exact absurd (hdirectory.symm.trans hcontent) (by simp)

theorem entered_nil (h : fs.Listable start) : fs.Entered start [] := by
  refine ⟨fun _ hname => absurd hname List.not_mem_nil, fun before hbefore => ?_, fun before name h => ?_⟩
  · rw [List.prefix_nil.mp hbefore]
    exact h
  · exact absurd (List.prefix_nil.mp h) (by simp)

theorem Entered.of_isPrefix {before : List String} (h : fs.Entered start names) (hbefore : before <+: names) :
    fs.Entered start before :=
  ⟨fun name hname => h.entryNames name (hbefore.subset hname),
    fun earlier hearlier => h.listable earlier (hearlier.trans hbefore),
    fun earlier name hearlier => h.noReturn earlier name (hearlier.trans hbefore)⟩

/-- Where a walk comes along, there is a directory. -/
theorem Entered.isDirectory (h : fs.Entered start names) :
    fs.isDirectory (Path.joinAll start names) = true :=
  (h.listable names (List.prefix_refl _)).isDirectory

/-- **One name more** is that of a directory that can be listed, and of no link back. -/
theorem entered_concat_iff :
    fs.Entered start (trail ++ [name]) ↔ fs.Entered start trail ∧ isEntryName name = true ∧
      fs.Listable (Path.joinAll start (trail ++ [name])) ∧
      (fs.HasLink (Path.joinAll start trail) name → ∀ earlier, earlier <+: trail → ∀ place,
        fs.LeadsInto (Path.joinAll start earlier) place →
          ¬ fs.LeadsInto (Path.joinAll start (trail ++ [name])) place) := by
  constructor
  · intro h
    exact ⟨h.of_isPrefix (List.prefix_append _ _), h.entryNames name (by simp),
      h.listable _ (List.prefix_refl _), h.noReturn trail name (List.prefix_refl _)⟩
  · rintro ⟨htrail, hname, hlistable, hreturn⟩
    refine ⟨fun other hother => ?_, fun before hbefore => ?_, fun before last hbefore => ?_⟩
    · rcases List.mem_append.mp hother with hother | hother
      · exact htrail.entryNames other hother
      · exact List.mem_singleton.mp hother ▸ hname
    · rcases List.prefix_concat_iff.mp hbefore with rfl | hbefore
      · exact hlistable
      · exact htrail.listable before hbefore
    · rcases List.prefix_concat_iff.mp hbefore with hsame | hbefore
      · obtain ⟨rfl, hlast⟩ := List.append_inj' hsame rfl
        obtain rfl := List.singleton_inj.mp hlast
        exact hreturn
      · exact htrail.noReturn before last hbefore

/-- What a listed file lies behind is the file itself or a directory that is entered. -/
theorem IsListed.eq_or_entered (h : fs.IsListed start names) (htrail : trail <+: names) :
    trail = names ∨ fs.Entered start trail := by
  rw [← List.dropLast_concat_getLast h.ne_nil] at htrail
  rcases List.prefix_concat_iff.mp htrail with hsame | hbefore
  · exact .inl (hsame.trans (List.dropLast_concat_getLast h.ne_nil))
  · exact .inr (h.entered.of_isPrefix hbefore)

/-! ## Steps -/

/-- A walk is at the directory that the trail leads to, and has opened those that the trail leads
    through. -/
structure Visits (fs : FileSystem) (start : String) (opened : List Place) (trail : List String)
    (here : Place) (entries : List (String × Node)) : Prop where
  entered : fs.Entered start trail
  resolves : fs.resolve (Path.joinAll start trail) = .ok (.present here (.directory entries))
  mem_opened_iff : ∀ place, place ∈ opened ↔
    ∃ earlier, earlier <+: trail ∧ fs.LeadsInto (Path.joinAll start earlier) place

/-- What a walk goes on to from a directory: the directories in it that can be listed, and those that its
    links lead to, unless they have been opened. -/
inductive Opens (fs : FileSystem) (start : String) (opened : List Place) (trail : List String)
    (here : Place) (entries : List (String × Node)) : String → Place → List (String × Node) → Prop
  | subdirectory {name : String} {below : List (String × Node)}
    (hmem : (name, .directory below) ∈ entries) (hlist : fs.canList (here ++ [name]) = true) :
    Opens fs start opened trail here entries name (here ++ [name]) below
  | link {name target : String} {there : Place} {below : List (String × Node)}
    (hmem : (name, .link target) ∈ entries)
    (hresolve : fs.resolve (Path.joinAll start (trail ++ [name])) = .ok (.present there (.directory below)))
    (hnew : there ∉ opened) (hlist : fs.canList there = true) :
    Opens fs start opened trail here entries name there below

theorem Opens.canList (h : fs.Opens start opened trail here entries name there below) :
    fs.canList there = true := by
  cases h with
  | subdirectory _ hlist => exact hlist
  | link _ _ _ hlist => exact hlist

theorem Opens.mem_names (h : fs.Opens start opened trail here entries name there below) :
    name ∈ entries.map Prod.fst := by
  cases h with
  | subdirectory hmem _ => exact List.mem_map_of_mem hmem
  | link hmem _ _ _ => exact List.mem_map_of_mem hmem

/-- How many directories have not been opened. -/
def unopened (fs : FileSystem) (opened : List Place) : Nat :=
  (fs.root.directoryPlaces.toFinset \ opened.toFinset).card

/-- The measure of a walk: for each directory that a link could still lead to the depth of the tree, and what
    is left of that depth. -/
def remaining (fs : FileSystem) (opened : List Place) (here : Place) : Nat :=
  fs.unopened opened * fs.root.directoryCount + (fs.root.directoryCount - here.length)

theorem unopened_le (fs : FileSystem) (opened : List Place) :
    fs.unopened opened ≤ fs.root.directoryCount := by
  rw [← Node.length_directoryPlaces]
  exact (Finset.card_le_card Finset.sdiff_subset).trans (List.toFinset_card_le _)

theorem unopened_cons_le (fs : FileSystem) (place : Place) (opened : List Place) :
    fs.unopened (place :: opened) ≤ fs.unopened opened := by
  apply Finset.card_le_card
  apply Finset.sdiff_subset_sdiff (Finset.Subset.refl _)
  rw [List.toFinset_cons]
  exact Finset.subset_insert _ _

theorem unopened_cons_lt (hthere : fs.root.at? there = some (.directory below)) (hnew : there ∉ opened) :
    fs.unopened (there :: opened) < fs.unopened opened := by
  apply Finset.card_lt_card
  rw [Finset.ssubset_iff_of_subset]
  · refine ⟨there, ?_, by simp⟩
    simp [hnew, Node.mem_directoryPlaces hthere]
  · apply Finset.sdiff_subset_sdiff (Finset.Subset.refl _)
    rw [List.toFinset_cons]
    exact Finset.subset_insert _ _

theorem unopened_singleton_lt (h : fs.root.at? here = some (.directory entries)) :
    fs.unopened [here] < fs.root.directoryCount :=
  (unopened_cons_lt h List.not_mem_nil).trans_le (unopened_le fs [])

namespace Visits

theorem at? (h : fs.Visits start opened trail here entries) :
    fs.root.at? here = some (.directory entries) :=
  at?_of_resolve h.resolves

theorem wellFormed (h : fs.Visits start opened trail here entries) : EntriesWellFormed entries :=
  wellFormed_of_resolve h.resolves

theorem canList (h : fs.Visits start opened trail here entries) : fs.canList here = true :=
  (listable_iff_canList h.resolves).mp (h.entered.listable trail (List.prefix_refl _))

/-- The beginning of a walk. -/
theorem nil (h : fs.resolve start = .ok (.present here (.directory entries)))
    (hlist : fs.canList here = true) : fs.Visits start [here] [] here entries := by
  refine ⟨entered_nil ((listable_iff_canList h).mpr hlist), h, fun place => ?_⟩
  rw [List.mem_singleton]
  constructor
  · rintro rfl
    exact ⟨[], List.prefix_refl _, entries, h⟩
  · rintro ⟨earlier, hearlier, hplace⟩
    rw [List.prefix_nil.mp hearlier] at hplace
    exact (leadsInto_iff h).mp hplace

/-- The name of an entry that is no link leads to it. -/
theorem resolve_concat (h : fs.Visits start opened trail here entries) (hmem : (name, node) ∈ entries)
    (hlink : ∀ target, node ≠ .link target) :
    fs.resolve (Path.joinAll start (trail ++ [name])) = .ok (.present (here ++ [name]) node) := by
  rw [Path.joinAll_concat]
  exact resolve_join h.resolves hmem hlink

theorem resolve_of_opens (h : fs.Visits start opened trail here entries)
    (hopens : fs.Opens start opened trail here entries name there below) :
    fs.resolve (Path.joinAll start (trail ++ [name])) = .ok (.present there (.directory below)) := by
  cases hopens with
  | subdirectory hmem _ => exact h.resolve_concat hmem (by simp)
  | link _ hresolve _ _ => exact hresolve

theorem hasLink_iff (h : fs.Visits start opened trail here entries) :
    fs.HasLink (Path.joinAll start trail) name ↔ ∃ target, (name, Node.link target) ∈ entries := by
  constructor
  · rintro ⟨place, others, target, hresolve, hmem⟩
    rw [h.resolves] at hresolve
    simp only [Except.ok.injEq, Target.present.injEq, Node.directory.injEq] at hresolve
    exact ⟨target, hresolve.2 ▸ hmem⟩
  · rintro ⟨target, hmem⟩
    exact ⟨here, entries, target, h.resolves, hmem⟩

/-- Two entries of one name are the same. -/
theorem node_unique {other : Node} (h : fs.Visits start opened trail here entries)
    (hmem : (name, node) ∈ entries) (hother : (name, other) ∈ entries) : node = other :=
  Option.some.inj (((valueAt?_eq_some_iff h.wellFormed).mpr hmem).symm.trans
    ((valueAt?_eq_some_iff h.wellFormed).mpr hother))

/-- **What the walk goes on to is entered**, one name further along the trail. -/
theorem opens (h : fs.Visits start opened trail here entries)
    (hopens : fs.Opens start opened trail here entries name there below) :
    fs.Visits start (there :: opened) (trail ++ [name]) there below := by
  have hresolve := h.resolve_of_opens hopens
  refine ⟨entered_concat_iff.mpr
    ⟨h.entered, ?_, (listable_iff_canList hresolve).mpr hopens.canList, ?_⟩, hresolve, fun place => ?_⟩
  · obtain ⟨⟨_, child⟩, hmem, rfl⟩ := List.mem_map.mp hopens.mem_names
    exact h.wellFormed.isEntryName_of_mem hmem
  · intro hlink earlier hearlier place hplace hback
    obtain ⟨target, htarget⟩ := h.hasLink_iff.mp hlink
    cases hopens with
    | subdirectory hmem _ => exact absurd (h.node_unique hmem htarget) (by simp)
    | link _ _ hnew _ =>
      rw [leadsInto_iff hresolve] at hback
      exact hnew (hback ▸ (h.mem_opened_iff place).mpr ⟨earlier, hearlier, hplace⟩)
  · rw [List.mem_cons, h.mem_opened_iff]
    constructor
    · rintro (rfl | ⟨earlier, hearlier, hplace⟩)
      · exact ⟨_, List.prefix_refl _, below, hresolve⟩
      · exact ⟨earlier, hearlier.trans (List.prefix_append _ _), hplace⟩
    · rintro ⟨earlier, hearlier, hplace⟩
      rcases List.prefix_concat_iff.mp hearlier with rfl | hearlier
      · exact .inl ((leadsInto_iff hresolve).mp hplace)
      · exact .inr ⟨earlier, hearlier, hplace⟩

/-- **The walk goes on to everything that is entered** one name further. -/
theorem exists_opens (h : fs.Visits start opened trail here entries)
    (hentered : fs.Entered start (trail ++ [name])) :
    ∃ there below, fs.Opens start opened trail here entries name there below := by
  obtain ⟨-, hname, hlistable, hreturn⟩ := entered_concat_iff.mp hentered
  obtain ⟨there, below, hresolve, hlist⟩ := listable_iff.mp hlistable
  have hjoin := hresolve
  rw [Path.joinAll_concat] at hjoin
  obtain ⟨child, hmem⟩ := exists_mem_of_resolve_join h.resolves hname hjoin
  cases child with
  | file content => exact absurd (hresolve.symm.trans (h.resolve_concat hmem (by simp))) (by simp)
  | directory others =>
    have hchild := h.resolve_concat hmem (by simp)
    exact ⟨_, others, .subdirectory hmem ((listable_iff_canList hchild).mp hlistable)⟩
  | link target =>
    refine ⟨there, below, .link hmem hresolve (fun hopen => ?_) hlist⟩
    obtain ⟨earlier, hearlier, hplace⟩ := (h.mem_opened_iff there).mp hopen
    exact hreturn (h.hasLink_iff.mpr ⟨target, hmem⟩) earlier hearlier there hplace ⟨below, hresolve⟩

/-- An entered path ends where the walk is, or leads on through what the walk goes on to. -/
theorem eq_or_opens (h : fs.Visits start opened trail here entries) (htrail : trail <+: names)
    (hentered : fs.Entered start names) :
    names = trail ∨ ∃ name there below, fs.Opens start opened trail here entries name there below ∧
      trail ++ [name] <+: names := by
  obtain ⟨rest, rfl⟩ := htrail
  cases rest with
  | nil => exact .inl (List.append_nil trail)
  | cons name rest =>
    rw [List.append_cons] at hentered ⊢
    obtain ⟨there, below, hopens⟩ := h.exists_opens (hentered.of_isPrefix (List.prefix_append _ _))
    exact .inr ⟨name, there, below, hopens, List.prefix_append _ _⟩

/-- **Each step takes something of the measure.** -/
theorem remaining_lt (h : fs.Visits start opened trail here entries)
    (hopens : fs.Opens start opened trail here entries name there below) :
    fs.remaining (there :: opened) there < fs.remaining opened here := by
  have hthere := Node.length_lt_directoryCount (h.opens hopens).at?
  have hhere := Node.length_lt_directoryCount h.at?
  unfold remaining
  cases hopens with
  | subdirectory hmem _ =>
    -- no more directories are left than before, and less of the depth
    have hless := Nat.mul_le_mul_right fs.root.directoryCount (fs.unopened_cons_le (here ++ [name]) opened)
    rw [List.length_append, List.length_singleton] at hthere ⊢
    omega
  | link _ hresolve hnew _ =>
    -- one directory less is left, which is worth the whole depth
    have hless := Nat.mul_le_mul_right fs.root.directoryCount
      (Nat.succ_le_of_lt (unopened_cons_lt (at?_of_resolve hresolve) hnew))
    rw [Nat.succ_mul] at hless
    omega

/-- What holds at a directory whenever it holds at all that the walk goes on to from there, holds wherever the
    walk is. By induction on the measure. -/
theorem induction {motive : List Place → List String → Place → List (String × Node) → Prop}
    {opened : List Place} {trail : List String} {here : Place} {entries : List (String × Node)}
    (h : fs.Visits start opened trail here entries)
    (step : ∀ {opened trail here entries}, fs.Visits start opened trail here entries →
      (∀ name there below, fs.Opens start opened trail here entries name there below →
        motive (there :: opened) (trail ++ [name]) there below) → motive opened trail here entries) :
    motive opened trail here entries := by
  generalize hmeasure : fs.remaining opened here = measure
  induction measure using Nat.strong_induction_on generalizing opened trail here entries with
  | _ measure ih =>
    refine step h fun name there below hopens => ?_
    exact ih _ (hmeasure ▸ h.remaining_lt hopens) (h.opens hopens) rfl

end Visits

/-! ## Bounds -/

/-- From where a walk is, a path goes on for no longer than the measure. -/
theorem Visits.length_lt (h : fs.Visits start opened trail here entries) :
    ∀ names, trail <+: names → fs.Entered start names →
      names.length < trail.length + fs.remaining opened here := by
  refine Visits.induction (motive := fun opened trail here _ => ∀ names, trail <+: names →
    fs.Entered start names → names.length < trail.length + fs.remaining opened here) h ?_
  intro opened trail here entries h ih names htrail hentered
  rcases h.eq_or_opens htrail hentered with rfl | ⟨name, there, below, hopens, hbelow⟩
  · have hhere := Node.length_lt_directoryCount h.at?
    rw [remaining]
    omega
  · have hrest := ih name there below hopens names hbelow hentered
    have hless := h.remaining_lt hopens
    rw [List.length_append, List.length_singleton] at hrest
    omega

/-- From where a walk is, there are finitely many paths. -/
theorem Visits.finite (h : fs.Visits start opened trail here entries) :
    {names | trail <+: names ∧ fs.Entered start names}.Finite := by
  refine Visits.induction (motive := fun _ trail _ _ =>
    {names | trail <+: names ∧ fs.Entered start names}.Finite) h ?_
  intro opened trail here entries h ih
  -- the path ends here, or goes on with the name of one of the entries
  have hbelow : ∀ name ∈ {name | name ∈ entries.map Prod.fst},
      {names | trail ++ [name] <+: names ∧ fs.Entered start names}.Finite := by
    intro name _
    by_cases hentered : fs.Entered start (trail ++ [name])
    · obtain ⟨there, below, hopens⟩ := h.exists_opens hentered
      exact ih name there below hopens
    · refine Set.finite_empty.subset fun names hnames => ?_
      exact hentered (hnames.2.of_isPrefix hnames.1)
  have hnames : {name | name ∈ entries.map Prod.fst}.Finite := List.finite_toSet _
  refine ((Set.finite_singleton trail).union (hnames.biUnion hbelow)).subset ?_
  rintro names ⟨htrail, hentered⟩
  rcases h.eq_or_opens htrail hentered with rfl | ⟨name, there, below, hopens, hbelow⟩
  · exact .inl rfl
  · exact .inr (Set.mem_biUnion hopens.mem_names ⟨hbelow, hentered⟩)

theorem Entered.exists_resolve (h : fs.Entered start names) :
    ∃ here entries, fs.resolve start = .ok (.present here (.directory entries)) ∧
      fs.canList here = true :=
  listable_iff.mp (h.listable [] List.nil_prefix)

/-- **No path of a walk is longer than the square of the number of directories**: between two links it goes
    down through real directories only. -/
theorem Entered.length_lt (h : fs.Entered start names) :
    names.length < fs.root.directoryCount * fs.root.directoryCount := by
  obtain ⟨here, entries, hstart, hlist⟩ := h.exists_resolve
  have hvisits := Visits.nil hstart hlist
  have hlength := hvisits.length_lt names List.nil_prefix h
  have hunopened := Nat.mul_le_mul_right fs.root.directoryCount
    (Nat.succ_le_of_lt (unopened_singleton_lt hvisits.at?))
  rw [Nat.succ_mul] at hunopened
  rw [remaining, List.length_nil] at hlength
  omega

/-- **A walk comes along finitely many paths.** -/
theorem finite_entered (fs : FileSystem) (start : String) : {names | fs.Entered start names}.Finite := by
  by_cases hstart : fs.Listable start
  · obtain ⟨here, entries, hstart, hlist⟩ := listable_iff.mp hstart
    exact (Visits.nil hstart hlist).finite.subset fun names hnames => ⟨List.nil_prefix, hnames⟩
  · exact Set.finite_empty.subset fun names hnames => hstart (hnames.listable [] List.nil_prefix)

/-! ## Listings -/

/-- The name of an entry and the files at it. -/
def entryFiles (fs : FileSystem) (start : String)
    (enter : List Place → List String → Place → List (List String)) (opened : List Place)
    (trail : List String) (here : Place) (entry : String × Node) : String × List (List String) :=
  (entry.1, match entry.2 with
    | .file _ => [trail ++ [entry.1]]
    | .directory below =>
      filesIn fs start enter ((here ++ [entry.1]) :: opened) (trail ++ [entry.1])
        (here ++ [entry.1]) (.directory below)
    | .link _ =>
      match fs.resolve (Path.joinAll start (trail ++ [entry.1])) with
      | .ok (.present _ (.file _)) => [trail ++ [entry.1]]
      | .ok (.present place (.directory _)) =>
        if opened.contains place then [] else enter (place :: opened) (trail ++ [entry.1]) place
      | _ => [])

section Listings

variable {enter : List Place → List String → Place → List (List String)} {files : List (List String)}

theorem filesAt_eq_map (opened : List Place) (trail : List String) (here : Place)
    (entries : List (String × Node)) :
    filesAt fs start enter opened trail here entries =
      entries.map (entryFiles fs start enter opened trail here) := by
  induction entries with
  | nil => rw [filesAt, List.map_nil]
  | cons first rest ih =>
    obtain ⟨name, node⟩ := first
    rw [filesAt.eq_def, List.map_cons, ← ih]
    cases node <;> rfl

/-- All files of the paths that go on from the trail, in the order of the paths. -/
structure Lists (fs : FileSystem) (start : String) (trail : List String) (files : List (List String)) :
    Prop where
  mem_iff : ∀ names, names ∈ files ↔ trail <+: names ∧ fs.IsListed start names
  increasing : files.Pairwise (· < ·)

/-- A listing is determined by where it begins. -/
theorem Lists.unique {others : List (List String)} (h : fs.Lists start trail files)
    (hothers : fs.Lists start trail others) : files = others := by
  have : Std.Irrefl (α := List String) (· < ·) := ⟨List.lt_irrefl⟩
  have : Std.Antisymm (α := List String) (· < ·) := ⟨fun _ _ hab hba => absurd hba (List.lt_asymm hab)⟩
  apply h.increasing.eq_of_mem_iff hothers.increasing
  intro names
  rw [h.mem_iff, hothers.mem_iff]

/-- At a name that leads to no file and is not entered, there is nothing. -/
theorem lists_nil (hfile : fs.isFile (Path.joinAll start trail) ≠ true)
    (hentered : ¬ fs.Entered start trail) : fs.Lists start trail [] := by
  refine ⟨fun names => ⟨fun h => absurd h List.not_mem_nil, ?_⟩, List.Pairwise.nil⟩
  rintro ⟨htrail, hlisted⟩
  rcases hlisted.eq_or_entered htrail with rfl | hentered'
  · exact absurd hlisted.isFile hfile
  · exact absurd hentered' hentered

/-- In a directory that cannot be listed, there is nothing. -/
theorem lists_closed (h : fs.resolve (Path.joinAll start trail) = .ok (.present here (.directory entries)))
    (hlist : fs.canList here = false) :
    fs.Lists start trail (filesIn fs start enter opened trail here (.directory entries)) := by
  rw [filesIn, if_neg (by simp [hlist])]
  refine lists_nil (not_isFile_of_isDirectory (isDirectory_iff.mpr ⟨here, entries, h⟩)) fun hentered => ?_
  have hlistable := hentered.listable trail (List.prefix_refl _)
  rw [listable_iff_canList h, hlist] at hlistable
  exact absurd hlistable (by simp)

namespace Visits

/-- At a name that leads to a file, that file is all there is. -/
theorem lists_file (h : fs.Visits start opened trail here entries) (hmem : (name, node) ∈ entries)
    (hfile : fs.isFile (Path.joinAll start (trail ++ [name])) = true) :
    fs.Lists start (trail ++ [name]) [trail ++ [name]] := by
  refine ⟨fun names => ?_, List.pairwise_singleton _ _⟩
  rw [List.mem_singleton]
  constructor
  · rintro rfl
    refine ⟨List.prefix_refl _, ⟨by simp, fun other hother => ?_, hfile⟩, ?_⟩
    · rcases List.mem_append.mp hother with hother | hother
      · exact h.entered.entryNames other hother
      · exact List.mem_singleton.mp hother ▸ h.wellFormed.isEntryName_of_mem hmem
    · rw [List.dropLast_concat]
      exact h.entered
  · rintro ⟨htrail, hlisted⟩
    rcases hlisted.eq_or_entered htrail with hsame | hentered
    · exact hsame.symm
    · exact absurd hfile (not_isFile_of_isDirectory hentered.isDirectory)

/-- A listed file that is reached through a name is reached through one of the entries. -/
theorem exists_mem_of_listed (h : fs.Visits start opened trail here entries)
    (hlisted : fs.IsListed start names) (htrail : trail ++ [name] <+: names) :
    ∃ child, (name, child) ∈ entries := by
  have hname : isEntryName name = true := hlisted.entryNames name (htrail.subset (by simp))
  obtain ⟨there, found, hresolve⟩ : ∃ there found,
      fs.resolve (Path.joinAll start (trail ++ [name])) = .ok (.present there found) := by
    rcases hlisted.eq_or_entered htrail with hsame | hentered
    · obtain ⟨there, content, hresolve⟩ := isFile_iff.mp hlisted.isFile
      exact ⟨there, _, hsame ▸ hresolve⟩
    · obtain ⟨there, below, hresolve⟩ := isDirectory_iff.mp hentered.isDirectory
      exact ⟨there, _, hresolve⟩
  rw [Path.joinAll_concat] at hresolve
  exact exists_mem_of_resolve_join h.resolves hname hresolve

/-- **The listings at the entries, in the order of their names, make up the listing of the directory.** -/
theorem lists_entries (h : fs.Visits start opened trail here entries)
    (hentries : ∀ entry ∈ entries,
      fs.Lists start (trail ++ [entry.1]) (entryFiles fs start enter opened trail here entry).2) :
    fs.Lists start trail ((Text.sortedBy Prod.fst
      (entries.map (entryFiles fs start enter opened trail here))).flatMap Prod.snd) := by
  have hnames : ((entries.map (entryFiles fs start enter opened trail here)).map Prod.fst).Nodup := by
    rw [List.map_map]
    exact h.wellFormed.nodup_names
  have hincreasing := Text.increasing_sortedBy hnames
  have hmem : ∀ pair, pair ∈ Text.sortedBy Prod.fst
      (entries.map (entryFiles fs start enter opened trail here)) ↔
        ∃ entry ∈ entries, entryFiles fs start enter opened trail here entry = pair := by
    intro pair
    rw [Text.sortedBy, List.mem_mergeSort, List.mem_map]
  generalize Text.sortedBy Prod.fst (entries.map (entryFiles fs start enter opened trail here)) = pairs
    at hincreasing hmem ⊢
  have hlists : ∀ pair ∈ pairs, fs.Lists start (trail ++ [pair.1]) pair.2 := by
    intro pair hpair
    obtain ⟨entry, hentry, rfl⟩ := (hmem pair).mp hpair
    exact hentries entry hentry
  refine ⟨fun names => ?_, List.pairwise_flatMap.mpr ⟨fun pair hpair => (hlists pair hpair).increasing, ?_⟩⟩
  · rw [List.mem_flatMap]
    constructor
    · rintro ⟨pair, hpair, hnames⟩
      obtain ⟨hbelow, hlisted⟩ := ((hlists pair hpair).mem_iff names).mp hnames
      exact ⟨(List.prefix_append _ _).trans hbelow, hlisted⟩
    · rintro ⟨⟨rest, rfl⟩, hlisted⟩
      cases rest with
      | nil =>
        -- the walk is at a directory, which is no file
        rw [List.append_nil] at hlisted
        exact absurd hlisted.isFile
          (not_isFile_of_isDirectory (isDirectory_iff.mpr ⟨here, entries, h.resolves⟩))
      | cons name rest =>
        rw [List.append_cons] at hlisted ⊢
        obtain ⟨child, hchild⟩ := h.exists_mem_of_listed hlisted (List.prefix_append _ _)
        exact ⟨_, (hmem _).mpr ⟨_, hchild, rfl⟩,
          ((hentries _ hchild).mem_iff _).mpr ⟨List.prefix_append _ _, hlisted⟩⟩
  · refine hincreasing.imp_of_mem fun {first second} hfirst hsecond hless => ?_
    intro names hnames others hothers
    -- the two paths part at the names of the entries
    obtain ⟨⟨rest, rfl⟩, -⟩ := ((hlists first hfirst).mem_iff names).mp hnames
    obtain ⟨⟨rest', rfl⟩, -⟩ := ((hlists second hsecond).mem_iff others).mp hothers
    rw [← List.append_cons, ← List.append_cons]
    exact List.append_left_lt (List.cons_lt_cons_iff.mpr (.inl hless))

/-- **The walk from a directory lists the files of all paths that go on from there.** The budget has to cover
    the directories that have not been opened: no link is followed without opening one of them. -/
theorem lists_filesIn (h : fs.Visits start opened trail here entries) :
    ∀ budget, fs.unopened opened ≤ budget → fs.Lists start trail
      (filesIn fs start (filesWithin fs start budget) opened trail here (.directory entries)) := by
  refine Visits.induction (motive := fun opened trail here entries => ∀ budget, fs.unopened opened ≤ budget →
    fs.Lists start trail
      (filesIn fs start (filesWithin fs start budget) opened trail here (.directory entries))) h ?_
  intro opened trail here entries h ih budget hbudget
  rw [filesIn, if_pos h.canList, filesAt_eq_map]
  refine h.lists_entries fun (name, node) hmem => ?_
  cases node with
  | file content =>
    exact h.lists_file hmem (isFile_iff.mpr ⟨_, content, h.resolve_concat hmem (by simp)⟩)
  | directory below =>
    cases hlist : fs.canList (here ++ [name]) with
    | false => exact lists_closed (h.resolve_concat hmem (by simp)) hlist
    | true =>
      exact ih name _ below (.subdirectory hmem hlist) budget ((fs.unopened_cons_le _ opened).trans hbudget)
  | link target =>
    have hnone : (∀ there below, fs.resolve (Path.joinAll start (trail ++ [name])) =
        .ok (.present there (.directory below)) → there ∈ opened) → ¬ fs.Entered start (trail ++ [name]) := by
      intro hopen hentered
      obtain ⟨there, below, hopens⟩ := h.exists_opens hentered
      cases hopens with
      | subdirectory hmem' _ => exact absurd (h.node_unique hmem hmem') (by simp)
      | link _ hresolve hnew _ => exact hnew (hopen there below hresolve)
    unfold entryFiles
    dsimp only
    split
    · next there content hresolve => exact h.lists_file hmem (isFile_iff.mpr ⟨there, content, hresolve⟩)
    · next there below hresolve =>
      by_cases hopen : there ∈ opened
      · rw [if_pos (by simpa using hopen)]
        refine lists_nil (not_isFile_of_isDirectory (isDirectory_iff.mpr ⟨there, below, hresolve⟩))
          (hnone fun there' below' hresolve' => ?_)
        exact (leadsInto_iff hresolve).mp ⟨below', hresolve'⟩ ▸ hopen
      · rw [if_neg (by simpa using hopen)]
        have hless := unopened_cons_lt (at?_of_resolve hresolve) hopen
        cases budget with
        | zero => omega
        | succ budget =>
          rw [filesWithin, at?_of_resolve hresolve]
          cases hlist : fs.canList there with
          | false => exact lists_closed hresolve hlist
          | true => exact ih name there below (.link hmem hresolve hopen hlist) budget (by omega)
    · next hfile hdirectory =>
      refine lists_nil (fun hisFile => ?_) (hnone fun there below hresolve => ?_)
      · obtain ⟨there, content, hresolve⟩ := isFile_iff.mp hisFile
        exact hfile there content hresolve
      · exact absurd hresolve (hdirectory there below)

end Visits

/-! ## The whole walk -/

/-- The walk lists all files of its paths, and it does so with any budget of more than the directories that
    have not been opened. -/
theorem Visits.lists_filesWithin {budget : Nat} (h : fs.Visits start opened trail here entries)
    (hbudget : fs.unopened opened < budget) :
    fs.Lists start trail (fs.filesWithin start budget opened trail here) := by
  obtain ⟨less, rfl⟩ := Nat.exists_eq_add_of_lt hbudget
  rw [filesWithin, h.at?]
  exact h.lists_filesIn _ (Nat.le_add_right _ _)

/-- From the start, whether or not it can be listed. -/
theorem lists_filesWithin_start {budget : Nat}
    (hstart : fs.resolve start = .ok (.present here (.directory entries)))
    (hbudget : fs.root.directoryCount ≤ budget) :
    fs.Lists start [] (fs.filesWithin start budget [here] [] here) := by
  have hunopened := unopened_singleton_lt (at?_of_resolve hstart)
  cases hlist : fs.canList here with
  | true => exact (Visits.nil hstart hlist).lists_filesWithin (hunopened.trans_le hbudget)
  | false =>
    obtain ⟨less, rfl⟩ := Nat.exists_eq_add_of_lt (hunopened.trans_le hbudget)
    rw [filesWithin, at?_of_resolve hstart]
    exact lists_closed hstart hlist

theorem lists_filesBelow (fs : FileSystem) (start : String) : fs.Lists start [] (fs.filesBelow start) := by
  unfold filesBelow
  split
  · next here entries hstart => exact lists_filesWithin_start hstart (Nat.le_succ _)
  · next hother =>
    refine ⟨fun names => ⟨fun hnames => absurd hnames List.not_mem_nil, fun ⟨_, hlisted⟩ => ?_⟩, .nil⟩
    obtain ⟨here, entries, hstart, -⟩ := hlisted.entered.exists_resolve
    exact absurd hstart (hother here entries)

/-- **A walk lists the files in the directories that are entered**, and no others. -/
theorem mem_filesBelow_iff : names ∈ fs.filesBelow start ↔ fs.IsListed start names := by
  rw [(lists_filesBelow fs start).mem_iff]
  exact and_iff_right List.nil_prefix

/-- **A walk lists each file once, in the order of the paths.** -/
theorem increasing_filesBelow (fs : FileSystem) (start : String) :
    (fs.filesBelow start).Pairwise (· < ·) :=
  (lists_filesBelow fs start).increasing

/-- **The bound on the links of a path is never reached**: with a larger one the walk lists the same. -/
theorem filesWithin_eq_filesBelow {budget : Nat}
    (hstart : fs.resolve start = .ok (.present here (.directory entries)))
    (hbudget : fs.root.directoryCount ≤ budget) :
    fs.filesWithin start budget [here] [] here = fs.filesBelow start :=
  (lists_filesWithin_start hstart hbudget).unique (lists_filesBelow fs start)

/-- **Every list of names that a walk gives leads to a file** below the path of its start. -/
theorem isFileBelow_of_mem_filesBelow (h : names ∈ fs.filesBelow start) : fs.IsFileBelow start names :=
  (mem_filesBelow_iff.mp h).toIsFileBelow

theorem start_ne_empty_of_mem_filesBelow (h : names ∈ fs.filesBelow start) : start ≠ "" := by
  obtain ⟨here, entries, hstart, -⟩ := (mem_filesBelow_iff.mp h).entered.exists_resolve
  exact ne_empty_of_resolve hstart

end Listings

end QualifierDiscovery.FileSystem
