import Mathlib.Data.List.Induction
import QualifierDiscovery.Proofs.Files.Resolution

/-!
# `Proofs.Files.AbsolutePaths` — a path and its absolute form lead to the same

The absolute form of a path stands below the working directory and has no dots in it. Taking the dots out
of the steps of a path does not change where they lead (`followLinks_dropDots`), and from the root the
working directory is reached through its own names (`follow_place`). So where a path leads to something,
its absolute form leads there too (`resolve_absolute?`).

## Contents
- **Texts.** `names_eq` — the components that the absolute form is joined from; `absolute?_eq_none_iff`,
  `isAbsolute_of_absolute?`.
- **Steps.** `steps_joinAll`, `DropsDots` and `follow_place`.
- **Resolution.** `resolve_absolute?`.
-/

namespace QualifierDiscovery

open Text (split)

/-! ## Texts -/

namespace Path

/-- A character other than the slash is in a joined path only if it is in one of the two parts. -/
theorem mem_toList_join_iff {base path : String} {c : Char} (hc : c ≠ '/')
    (hpath : isAbsolute path = false) :
    c ∈ (join base path).toList ↔ c ∈ base.toList ∨ c ∈ path.toList := by
  by_cases hempty : base = ""
  · subst hempty
    have hjoin : join "" path = path := by
      unfold join
      rw [hpath]
      exact String.empty_append
    rw [hjoin]
    simp
  · rw [join_eq hempty hpath]
    split <;> simp [String.toList_append, hc]

/-- The components of a path that can be put below another one: its names and double dots. -/
def names (path : String) : List String :=
  ((components path).filter fun c => c != .root && c != .current).map Component.text

theorem componentOf?_eq_some {piece : String} (hempty : piece ≠ "") (hdot : piece ≠ ".") :
    ∃ c, componentOf? piece = some c ∧ c ≠ .root ∧ c ≠ .current ∧ c.text = piece := by
  unfold componentOf?
  rw [if_neg (by simp [hempty, hdot])]
  by_cases hdots : piece = ".."
  · rw [if_pos hdots]
    exact ⟨.parent, rfl, by decide, by decide, hdots.symm⟩
  · rw [if_neg hdots]
    exact ⟨.normal piece, rfl, Component.noConfusion, Component.noConfusion, rfl⟩

theorem componentOf?_eq_none {piece : String} (h : piece = "" ∨ piece = ".") :
    componentOf? piece = none := by
  unfold componentOf?
  exact if_pos h

/-- The texts of the components that pieces stand for are the pieces, without the empty ones and the
    dots. -/
theorem map_text_componentOf? (texts : List String) :
    ((texts.filterMap componentOf?).filter fun c => c != .root && c != .current).map Component.text =
      (texts.filter (· != "")).filter (· != ".") := by
  induction texts with
  | nil => rfl
  | cons piece rest ih =>
    by_cases hpiece : piece = "" ∨ piece = "."
    · rw [List.filterMap_cons_none (componentOf?_eq_none hpiece), ih]
      rcases hpiece with rfl | rfl <;> rfl
    · obtain ⟨hempty, hdot⟩ := not_or.mp hpiece
      obtain ⟨c, hc, hroot, hcurrent, htext⟩ := componentOf?_eq_some hempty hdot
      rw [List.filterMap_cons_some hc]
      simp [hroot, hcurrent, hempty, hdot, htext, ih]

/-- **The names of a path** are its pieces without the dots. -/
theorem names_eq (path : String) : names path = (pieces path).filter (· != ".") := by
  unfold names pieces components
  obtain ⟨first, rest, hsplit⟩ := List.exists_cons_of_ne_nil (@Text.split_ne_nil '/' path)
  rw [hsplit]
  dsimp only
  by_cases habsolute : isAbsolute path = true
  · -- the first piece, in front of the first slash, is empty
    obtain ⟨below, rfl⟩ := Text.startsWith_iff.mp habsolute
    have hfirst : first = "" := by
      have hnothing : split '/' "" = [""] := Text.split_eq_singleton (by simp)
      have hpieces : split '/' ("/" ++ below) = "" :: split '/' below := by
        have hcut := Text.split_append_separator (c := '/') "" below
        rw [hnothing, String.empty_append] at hcut
        exact hcut
      exact (List.cons.inj (hsplit.symm.trans hpieces)).1
    rw [if_pos habsolute, hfirst, List.singleton_append,
      List.filter_cons_of_neg (by decide), map_text_componentOf?]
    rfl
  · rw [if_neg habsolute]
    by_cases hdot : first = "."
    · rw [if_pos hdot, hdot, List.singleton_append, List.filter_cons_of_neg (by decide),
        map_text_componentOf?]
      rfl
    · rw [if_neg hdot, ← map_text_componentOf?]
      cases hcomponent : componentOf? first with
      | none => rw [List.filterMap_cons_none hcomponent]; rfl
      | some c => rw [List.filterMap_cons_some hcomponent]; rfl

theorem mem_names {path name : String} (h : name ∈ names path) :
    name ≠ "" ∧ '/' ∉ name.toList ∧ name ∈ split '/' path := by
  rw [names_eq] at h
  have hpiece := List.mem_filter.mp (List.mem_filter.mp h).1
  exact ⟨by simpa using hpiece.2, Text.notMem_of_mem_split hpiece.1, hpiece.1⟩

/-- Where the absolute form of a path begins. -/
def absoluteStart (workingDirectory path : String) : String :=
  if Text.startsWith "//" path && !Text.startsWith "///" path then "//"
  else if isAbsolute path then "/"
  else workingDirectory

theorem absolute?_eq_none_iff {workingDirectory path : String} :
    absolute? workingDirectory path = none ↔ path = "" := by
  unfold absolute?
  by_cases hempty : path = ""
  · simp [hempty]
  · simp [hempty]

/-- The absolute form of a path that does not end in a slash. -/
theorem absolute?_eq {workingDirectory path : String} (hempty : path ≠ "")
    (hslash : Text.endsWith "/" path = false) :
    absolute? workingDirectory path =
      some (joinAll (absoluteStart workingDirectory path) (names path)) := by
  unfold absolute?
  rw [if_neg (by simpa using hempty), hslash]
  rfl

theorem isAbsolute_joinAll {base : String} {names : List String} (hbase : base ≠ "")
    (hnames : ∀ name ∈ names, '/' ∉ name.toList) : isAbsolute (joinAll base names) = isAbsolute base := by
  induction names generalizing base with
  | nil => rfl
  | cons name rest ih =>
    have hname := isAbsolute_eq_false (hnames name List.mem_cons_self)
    show isAbsolute (joinAll (join base name) rest) = _
    rw [ih (join_ne_empty hbase hname) fun other hother => hnames other (List.mem_cons_of_mem _ hother),
      isAbsolute_join hbase hname]

theorem notMem_toList_joinAll {base : String} {names : List String} {c : Char} (hc : c ≠ '/')
    (hslash : ∀ name ∈ names, '/' ∉ name.toList) (hbase : c ∉ base.toList)
    (hnames : ∀ name ∈ names, c ∉ name.toList) : c ∉ (joinAll base names).toList := by
  induction names generalizing base with
  | nil => exact hbase
  | cons name rest ih =>
    have hname := isAbsolute_eq_false (hslash name List.mem_cons_self)
    apply ih
    · exact fun other hother => hslash other (List.mem_cons_of_mem _ hother)
    · rw [mem_toList_join_iff hc hname]
      exact not_or.mpr ⟨hbase, hnames name List.mem_cons_self⟩
    · exact fun other hother => hnames other (List.mem_cons_of_mem _ hother)

/-- The absolute path of a place is its names with a slash before each. -/
theorem ofNames_eq_join (names : List String) : ofNames names = Text.join '/' ("" :: names) := by
  apply String.toList_injective
  rw [Text.toList_join_cons, ofNames, String.toList_ofList]
  rfl

end Path

/-! ## Steps -/

namespace FileSystem

open QualifierDiscovery.Path (pieces names)

variable {fs : FileSystem} {path base name full : String} {target : Target}

/-- The steps of a path that is joined from names are those of its base and the names. -/
theorem steps_joinAll {names : List String} (hbase : base ≠ "") (hsteps : steps base = pieces base)
    (hnames : ∀ name ∈ names, name ≠ "" ∧ '/' ∉ name.toList) :
    pieces (Path.joinAll base names) = pieces base ++ names ∧
      steps (Path.joinAll base names) = pieces base ++ names := by
  induction names using List.reverseRecOn with
  | nil =>
    rw [List.append_nil]
    exact ⟨rfl, hsteps⟩
  | append_singleton names last ih =>
    have hfront : ∀ name ∈ names, name ≠ "" ∧ '/' ∉ name.toList :=
      fun name hname => hnames name (List.mem_append_left _ hname)
    obtain ⟨hempty, hslash⟩ := hnames last (List.mem_append_right _ List.mem_cons_self)
    have hne := Path.joinAll_ne_empty hbase fun name hname => (hfront name hname).2
    rw [Path.joinAll_concat, ← List.append_assoc, ← (ih hfront).1]
    exact ⟨Path.pieces_join hne hempty hslash, steps_join hne hempty hslash⟩

theorem isEntryName_of_mem_workingPlace (fs : FileSystem) :
    ∀ name ∈ fs.workingPlace, isEntryName name = true :=
  List.all_eq_true.mp fs.workingNames

/-- The working directory's path has the names of its place for steps. -/
theorem steps_workingDirectory :
    pieces fs.workingDirectory = fs.workingPlace ∧ steps fs.workingDirectory = fs.workingPlace := by
  unfold workingDirectory
  by_cases hplace : fs.workingPlace = []
  · rw [if_pos (List.isEmpty_iff.mpr hplace), hplace]
    exact ⟨by decide, by decide⟩
  · rw [if_neg (by simpa using hplace)]
    have hslash : ∀ piece ∈ "" :: fs.workingPlace, '/' ∉ piece.toList := by
      intro piece hpiece
      rcases List.mem_cons.mp hpiece with rfl | hname
      · simp
      · exact (isEntryName_iff.mp (fs.isEntryName_of_mem_workingPlace piece hname)).2.2.2.1
    have hsplit : split '/' (Path.ofNames fs.workingPlace) = "" :: fs.workingPlace := by
      rw [Path.ofNames_eq_join]
      exact Text.split_join hslash (List.cons_ne_nil _ _)
    have hpieces : pieces (Path.ofNames fs.workingPlace) = fs.workingPlace := by
      unfold pieces
      rw [hsplit, List.filter_cons_of_neg (by decide), List.filter_eq_self]
      intro name hname
      simpa using (isEntryName_iff.mp (fs.isEntryName_of_mem_workingPlace name hname)).1
    obtain ⟨front, last, hlast⟩ := (List.eq_nil_or_concat fs.workingPlace).resolve_left hplace
    have hne : last ≠ "" :=
      (isEntryName_iff.mp (fs.isEntryName_of_mem_workingPlace last (by rw [hlast]; simp))).1
    have hfront : split '/' (Path.ofNames fs.workingPlace) = ("" :: front) ++ [last] := by
      rw [hsplit, hlast]
      simp
    exact ⟨hpieces, (steps_eq_pieces hfront hne).trans hpieces⟩

/-- A relative path has a step. -/
theorem steps_ne_nil (hempty : path ≠ "") (hrelative : Path.isAbsolute path = false) :
    steps path ≠ [] := by
  have hpieces : pieces path ≠ [] := by
    obtain ⟨first, rest, hsplit⟩ :=
      List.exists_cons_of_ne_nil (@Text.split_ne_nil '/' path)
    have hfirst : first ≠ "" := by
      rintro rfl
      have hpath := Text.join_split (c := '/') path
      rw [hsplit] at hpath
      by_cases hrest : rest = []
      · rw [hrest, Text.join_singleton] at hpath
        exact hempty hpath.symm
      · rw [Text.join_cons hrest, String.empty_append] at hpath
        have habsolute : Path.isAbsolute path = true := Text.startsWith_iff.mpr ⟨_, hpath.symm⟩
        rw [hrelative] at habsolute
        exact absurd habsolute (by decide)
    unfold pieces
    rw [hsplit, List.filter_cons_of_pos (by simpa using hfirst)]
    exact List.cons_ne_nil _ _
  unfold steps
  dsimp only
  split
  · exact List.append_ne_nil_of_right_ne_nil _ (List.cons_ne_nil _ _)
  · exact hpieces

/-- Steps with some of their dots taken out. -/
inductive DropsDots : List String → List String → Prop
  | nil : DropsDots [] []
  | keep {before after : List String} (step : String) (h : DropsDots before after) :
    DropsDots (step :: before) (step :: after)
  | drop {before after : List String} {step : String} (hdot : step = ".")
    (h : DropsDots before after) : DropsDots (step :: before) after

namespace DropsDots

theorem append_left (front : List String) {before after : List String} (h : DropsDots before after) :
    DropsDots (front ++ before) (front ++ after) := by
  induction front with
  | nil => exact h
  | cons step rest ih => exact .keep step ih

theorem filter (steps : List String) : DropsDots steps (steps.filter (· != ".")) := by
  induction steps with
  | nil => exact .nil
  | cons step rest ih =>
    by_cases hdot : step = "."
    · subst hdot
      exact .drop rfl ih
    · rw [List.filter_cons_of_pos (by simpa using hdot)]
      exact .keep step ih

end DropsDots

section Following

variable {root : Node} {jump : Place → List String → Except FileError Target} {here : Place}
  {before after : List String}

/-- Where steps lead, they lead without dots too, if that is so after every link. By induction over what the
    steps do: a dot stays where it is, and every other step is kept. -/
theorem Leads.dropDots
    (hjump : ∀ here before after target, DropsDots before after → jump here before = .ok target →
      jump here after = .ok target)
    (h : Leads root jump here before target) (hdrop : DropsDots before after) :
    Leads root jump here after target := by
  induction h generalizing after with
  | here hhere =>
    cases hdrop
    exact .here hhere
  | dot hhere _ ih =>
    cases hdrop with
    | keep _ hrest => exact .dot hhere (ih hrest)
    | drop _ hrest => exact ih hrest
  | dots hhere _ ih =>
    cases hdrop with
    | keep _ hrest => exact .dots hhere (ih hrest)
    | drop hdot => exact absurd hdot (by decide)
  | free hhere hname hfree =>
    cases hdrop with
    | keep _ hrest =>
      cases hrest
      exact .free hhere hname hfree
    | drop hdot => exact absurd hdot hname.1
  | link hhere hname hlink hfollows =>
    cases hdrop with
    | keep _ hrest => exact .link hhere hname hlink (hjump _ _ _ _ (hrest.append_left _) hfollows)
    | drop hdot => exact absurd hdot hname.1
  | entry hhere hname hnode hlink _ ih =>
    cases hdrop with
    | keep _ hrest => exact .entry hhere hname hnode hlink (ih hrest)
    | drop hdot => exact absurd hdot hname.1

theorem followLinks_dropDots {budget : Nat} (hdrop : DropsDots before after)
    (h : followLinks root budget here before = .ok target) :
    followLinks root budget here after = .ok target := by
  induction budget generalizing here before after target with
  | zero =>
    refine ((leads_of_follow h).dropDots ?_ hdrop).follow
    intro _ _ _ _ _ hjump
    exact absurd hjump (by simp)
  | succ budget ih =>
    refine ((leads_of_follow h).dropDots ?_ hdrop).follow
    intro _ _ _ _ hdots hjump
    exact ih hdots hjump

/-- A step is taken from a directory only. -/
theorem exists_directory_of_follow_cons {step : String} {rest : List String}
    (h : follow root jump here (step :: rest) = .ok target) :
    ∃ entries, root.at? here = some (.directory entries) := by
  cases leads_of_follow h with
  | dot hhere _ => exact ⟨_, hhere⟩
  | dots hhere _ => exact ⟨_, hhere⟩
  | free hhere _ _ => exact ⟨_, hhere⟩
  | link hhere _ _ _ => exact ⟨_, hhere⟩
  | entry hhere _ _ _ _ => exact ⟨_, hhere⟩

/-- **A directory is reached through the names of its place**, none of which is a link. -/
theorem follow_place {place : Place} {entries : List (String × Node)} (rest : List String)
    (hnames : ∀ name ∈ place, isEntryName name = true)
    (hplace : root.at? (here ++ place) = some (.directory entries)) :
    follow root jump here (place ++ rest) = follow root jump (here ++ place) rest := by
  induction place generalizing here with
  | nil => rw [List.nil_append, List.append_nil]
  | cons name place ih =>
    obtain ⟨-, hdot, hdots, -, -⟩ := isEntryName_iff.mp (hnames name List.mem_cons_self)
    obtain ⟨above, habove⟩ := Node.exists_directory_of_at?_append (List.cons_ne_nil name place) hplace
    rw [List.append_cons] at hplace
    obtain ⟨child, hchild, hbelow⟩ := Option.bind_eq_some_iff.mp ((Node.at?_append _ _ _).symm.trans hplace)
    obtain ⟨inner, rfl⟩ := Node.exists_eq_directory hbelow
    have hentry := (Node.at?_concat habove).symm.trans hchild
    rw [List.append_cons here name place, ← ih
      (fun other hother => hnames other (List.mem_cons_of_mem _ hother)) hplace, List.cons_append, follow,
      habove]
    simp only [if_neg hdot, if_neg hdots, hentry]

end Following

/-! ## Resolution -/

theorem isAbsolute_workingDirectory (fs : FileSystem) : Path.isAbsolute fs.workingDirectory = true := by
  unfold workingDirectory
  split
  · decide
  · next hplace =>
    obtain ⟨name, rest, hnames⟩ := List.exists_cons_of_ne_nil fun hnil => hplace (List.isEmpty_iff.mpr hnil)
    rw [hnames, Path.ofNames_eq_join, Text.join_cons (List.cons_ne_nil _ _), String.empty_append]
    exact Text.startsWith_iff.mpr ⟨_, rfl⟩

theorem isAbsolute_absoluteStart (fs : FileSystem) (path : String) :
    Path.isAbsolute (Path.absoluteStart fs.workingDirectory path) = true := by
  unfold Path.absoluteStart
  split
  · decide
  · split
    · decide
    · exact fs.isAbsolute_workingDirectory

theorem ne_empty_of_isAbsolute (h : Path.isAbsolute path = true) : path ≠ "" := by
  rintro rfl
  exact absurd h (by decide)

/-- **An absolute form begins at the root.** -/
theorem isAbsolute_of_absolute? (h : Path.absolute? fs.workingDirectory path = some full) :
    Path.isAbsolute full = true := by
  have hstart := isAbsolute_absoluteStart fs path
  have hne := ne_empty_of_isAbsolute hstart
  have hslash : ∀ name ∈ names path, '/' ∉ name.toList := fun name hname => (Path.mem_names hname).2.1
  have hjoined := (Path.isAbsolute_joinAll hne hslash).trans hstart
  unfold Path.absolute? at h
  split at h
  · exact absurd h (by simp)
  · rw [← Option.some.inj h]
    split
    · exact (Path.isAbsolute_join (ne_empty_of_isAbsolute hjoined) (by decide)).trans hjoined
    · exact hjoined

theorem dropsDots_steps (path : String) : DropsDots (steps path) (names path) := by
  obtain ⟨closing, hclosing, hsteps⟩ := exists_steps_eq path
  have hnames : names path = (steps path).filter (· != ".") := by
    rw [Path.names_eq, hsteps, List.filter_append]
    rcases hclosing with rfl | rfl <;> simp
  rw [hnames]
  exact DropsDots.filter _

/-- The steps of an absolute form are the names of its path, behind those of the working directory where the
    path is a relative one. -/
theorem steps_absolute (fs : FileSystem) (path : String) :
    steps (Path.joinAll (Path.absoluteStart fs.workingDirectory path) (names path)) =
      fs.startOf path ++ names path := by
  have hne := ne_empty_of_isAbsolute (isAbsolute_absoluteStart fs path)
  have hnames : ∀ name ∈ names path, name ≠ "" ∧ '/' ∉ name.toList :=
    fun name hname => ⟨(Path.mem_names hname).1, (Path.mem_names hname).2.1⟩
  have hstart : pieces (Path.absoluteStart fs.workingDirectory path) = fs.startOf path ∧
      steps (Path.absoluteStart fs.workingDirectory path) = fs.startOf path := by
    unfold Path.absoluteStart startOf
    by_cases habsolute : Path.isAbsolute path = true
    · rw [if_pos habsolute, if_pos habsolute]
      split <;> exact ⟨by decide, by decide⟩
    · -- a path that begins with two slashes would be absolute
      have hdouble : (Text.startsWith "//" path && !Text.startsWith "///" path) = false := by
        rw [Bool.and_eq_false_iff]
        left
        rw [Bool.eq_false_iff]
        intro hdouble
        obtain ⟨rest, rfl⟩ := Text.startsWith_iff.mp hdouble
        exact habsolute (Text.startsWith_iff.mpr ⟨"/" ++ rest, by rw [← String.append_assoc]; rfl⟩)
      rw [if_neg (by rw [hdouble]; decide), if_neg habsolute, if_neg habsolute]
      exact steps_workingDirectory
  rw [(steps_joinAll hne (hstart.2.trans hstart.1.symm) hnames).2, hstart.1]

theorem startOf_of_absolute (h : Path.isAbsolute path = true) : fs.startOf path = [] := by
  unfold startOf
  exact if_pos h

theorem startOf_of_relative (h : Path.isAbsolute path = false) : fs.startOf path = fs.workingPlace := by
  unfold startOf
  rw [h]
  rfl

/-- A relative path leads nowhere without a working directory. -/
theorem exists_directory_workingPlace (h : fs.resolve path = .ok target)
    (hrelative : Path.isAbsolute path = false) :
    ∃ entries, fs.root.at? fs.workingPlace = some (.directory entries) := by
  obtain ⟨-, hempty, hfollow⟩ := resolve_eq_ok_iff.mp h
  obtain ⟨step, rest, hsteps⟩ := List.exists_cons_of_ne_nil (steps_ne_nil hempty hrelative)
  obtain ⟨jump, hjump⟩ := followLinks_eq_follow fs.root linkLimit
  rw [hjump, hsteps, startOf_of_relative hrelative] at hfollow
  exact exists_directory_of_follow_cons hfollow

theorem notMem_nul_absoluteStart (fs : FileSystem) (path : String) :
    '\x00' ∉ (Path.absoluteStart fs.workingDirectory path).toList := by
  unfold Path.absoluteStart
  split
  · decide
  · split
    · decide
    · unfold workingDirectory
      split
      · decide
      · unfold Path.ofNames
        rw [String.toList_ofList]
        intro hmem
        obtain ⟨name, hname, hin⟩ := List.mem_flatMap.mp hmem
        have hnul := (isEntryName_iff.mp (fs.isEntryName_of_mem_workingPlace name hname)).2.2.2.2
        rcases List.mem_cons.mp hin with hslash | hin
        · exact absurd hslash (by decide)
        · exact hnul hin

/-- **A path and its absolute form lead to the same.** A relative path is resolved from the working
    directory, the absolute form goes there from the root; on the way from there on only dots are
    missing. -/
theorem resolve_absolute? (h : fs.resolve path = .ok target) (hslash : Text.endsWith "/" path = false)
    (hfull : Path.absolute? fs.workingDirectory path = some full) : fs.resolve full = .ok target := by
  obtain ⟨hnul, hempty, hfollow⟩ := resolve_eq_ok_iff.mp h
  have habsolute := isAbsolute_of_absolute? hfull
  have hdropped := followLinks_dropDots (dropsDots_steps path) hfollow
  rw [Path.absolute?_eq hempty hslash] at hfull
  obtain rfl := Option.some.inj hfull
  have hnulFull :
      '\x00' ∉ (Path.joinAll (Path.absoluteStart fs.workingDirectory path) (names path)).toList := by
    apply Path.notMem_toList_joinAll (by decide)
    · exact fun name hname => (Path.mem_names hname).2.1
    · exact notMem_nul_absoluteStart fs path
    · intro name hname hmem
      exact hnul (Text.mem_toList_of_mem_split (Path.mem_names hname).2.2 hmem)
  rw [resolve_eq_followLinks hnulFull (ne_empty_of_isAbsolute habsolute), startOf_of_absolute habsolute,
    steps_absolute]
  cases hrelative : Path.isAbsolute path with
  | true =>
    rw [startOf_of_absolute hrelative] at hdropped ⊢
    exact hdropped
  | false =>
    obtain ⟨entries, hentries⟩ := exists_directory_workingPlace h hrelative
    obtain ⟨jump, hjump⟩ := followLinks_eq_follow fs.root linkLimit
    rw [startOf_of_relative hrelative, hjump] at hdropped ⊢
    rw [follow_place (names path) fs.isEntryName_of_mem_workingPlace hentries]
    exact hdropped

end FileSystem

end QualifierDiscovery
