import Mathlib.Data.Option.Basic
import QualifierDiscovery.Archive.Directory
import QualifierDiscovery.Proofs.Agreement
import QualifierDiscovery.Proofs.Files.Walk
import QualifierDiscovery.Proofs.Text.Order

/-!
# `Proofs.Files.Reordering` — trees that differ in the order of their entries

Two trees are reorderings of each other if the same stands at every place, where directories are compared by
what is below them and archives by the names of their entries (`Node.Reordered`). The order of a listing is
then all that can be told apart by a path: paths lead to the same places (`Reordered.resolve`), and
what is listed there is the same up to order (`Reordered.listDirectory`). A walk sorts what it lists at
every directory, so nothing of the order is left in its result (`filesBelow_eq`).

## Contents
- **Trees.** `Node.Reordered` and what it gives for the entries of a directory: `Reordered.valueAt?`,
  `Reordered.map_perm`; `directoryCount_eq`.
- **Paths.** `follow_reordered` — the steps of a path, and `Reordered.resolve` — a whole path.
- **Walks.** `filesIn_eq` between links, `filesWithin_eq` through them, `filesBelow_eq` for a whole walk.
-/

namespace QualifierDiscovery

open Text (valueAt?)

/-! ## Trees -/

/-- The same content, or that of two archives with the same entries in another order. -/
inductive SameContent : ByteArray → ByteArray → Prop
  | same (content : ByteArray) : SameContent content content
  | archives {content other : ByteArray} {names names' : List String}
    (hcontent : Archive.entryNames? content = some names)
    (hother : Archive.entryNames? other = some names') (hnames : names.Perm names') :
    SameContent content other

namespace Node

/-- Two nodes of the same kind, a link to the same text, a file of the same content. What is below a
    directory is not looked at. -/
inductive Alike : Node → Node → Prop
  | file {content other : ByteArray} (hcontent : SameContent content other) :
    Alike (.file content) (.file other)
  | link (target : String) : Alike (.link target) (.link target)
  | directory (entries others : List (String × Node)) : Alike (.directory entries) (.directory others)

/-- Two trees that differ only in the order of the entries of directories, and of archives. -/
def Reordered (node other : Node) : Prop :=
  ∀ place, Option.Rel Alike (node.at? place) (other.at? place)

theorem Reordered.alike {node other : Node} (h : node.Reordered other) : Alike node other := by
  have hroot := h []
  rw [Node.at?, Node.at?] at hroot
  cases hroot with
  | some halike => exact halike

/-- What stands at a place of two reordered trees is reordered too. -/
theorem Reordered.at? {node other : Node} (h : node.Reordered other) (place : Place) :
    Option.Rel Reordered (node.at? place) (other.at? place) := by
  have hplace := h place
  -- what is below the place is compared at the places that go on from it
  have hbelow := fun rest => h (place ++ rest)
  simp only [at?_append] at hbelow
  generalize node.at? place = found at hplace hbelow ⊢
  generalize other.at? place = found' at hplace hbelow ⊢
  cases hplace with
  | none => exact .none
  | some _ => exact .some hbelow

theorem Reordered.refl (node : Node) : node.Reordered node := by
  intro place
  cases node.at? place with
  | none => exact .none
  | some found =>
    cases found with
    | file content => exact .some (.file (.same content))
    | link target => exact .some (.link target)
    | directory entries => exact .some (.directory entries entries)

theorem Reordered.of_sameContent {content other : ByteArray} (h : SameContent content other) :
    (Node.file content).Reordered (.file other) := by
  intro place
  cases place with
  | nil => exact .some (.file h)
  | cons name rest => exact .none

section Entries

variable {entries others : List (String × Node)}

/-- Look-ups of a name in two reordered directories agree. -/
theorem Reordered.valueAt? (h : (directory entries).Reordered (directory others)) (name : String) :
    Option.Rel Reordered (Text.valueAt? name entries) (Text.valueAt? name others) := by
  have hentry := h.at? [name]
  have hsingle : ∀ list : List (String × Node),
      (directory list).at? [name] = Text.valueAt? name list := by
    intro list
    exact @at?_concat _ [] list name (by rw [Node.at?])
  rwa [hsingle, hsingle] at hentry

/-- Directories are reordered if the look-ups of every name agree. -/
theorem Reordered.of_valueAt?
    (h : ∀ name, Option.Rel Reordered (Text.valueAt? name entries) (Text.valueAt? name others)) :
    (Node.directory entries).Reordered (.directory others) := by
  intro place
  cases place with
  | nil => exact .some (.directory entries others)
  | cons name rest =>
    rw [at?_directory_cons, at?_directory_cons]
    have hentry := h name
    generalize Text.valueAt? name entries = found at hentry ⊢
    generalize Text.valueAt? name others = found' at hentry ⊢
    cases hentry with
    | none => exact .none
    | some hchild => exact hchild rest

theorem Reordered.singleton {node other : Node} (h : node.Reordered other) (name : String) :
    (Node.directory [(name, node)]).Reordered (.directory [(name, other)]) := by
  apply Reordered.of_valueAt?
  intro wanted
  unfold Text.valueAt?
  by_cases hname : name = wanted
  · rw [if_pos hname, if_pos hname]
    exact .some h
  · rw [if_neg hname, if_neg hname]
    exact .none

/-- Entries in another order make a reordered directory. -/
theorem Reordered.of_perm (hperm : entries.Perm others) (hwf : EntriesWellFormed entries)
    (hwf' : EntriesWellFormed others) :
    (Node.directory entries).Reordered (.directory others) := by
  apply Reordered.of_valueAt?
  intro name
  have hsame : Text.valueAt? name others = Text.valueAt? name entries := by
    apply Option.ext
    intro node
    rw [valueAt?_eq_some_iff hwf, valueAt?_eq_some_iff hwf', hperm.mem_iff]
  rw [hsame]
  -- so a name has the very same node in both
  cases Text.valueAt? name entries with
  | none => exact .none
  | some node => exact .some (.refl node)

/-- The listings of reordered directories are the same up to order. -/
theorem Reordered.names_perm (h : (directory entries).Reordered (directory others))
    (hwf : EntriesWellFormed entries) (hwf' : EntriesWellFormed others) :
    (entries.map Prod.fst).Perm (others.map Prod.fst) := by
  rw [List.perm_ext_iff_of_nodup hwf.nodup_names hwf'.nodup_names]
  intro name
  rw [← Text.isSome_valueAt?_iff, ← Text.isSome_valueAt?_iff]
  have hentry := h.valueAt? name
  generalize Text.valueAt? name entries = found at hentry ⊢
  generalize Text.valueAt? name others = found' at hentry ⊢
  cases hentry with
  | none => exact Iff.rfl
  | some _ => exact Iff.rfl

/-- A well-formed directory is its listing with each name looked up. -/
theorem map_eq_filterMap_names {β : Type} (hwf : EntriesWellFormed entries)
    (f : String × Node → β) :
    entries.map f = (entries.map Prod.fst).filterMap fun name =>
      (Text.valueAt? name entries).map fun node => f (name, node) := by
  rw [List.filterMap_map, ← List.filterMap_eq_map]
  apply List.filterMap_congr
  rintro ⟨name, node⟩ hmem
  show some (f (name, node)) = (Text.valueAt? name entries).map fun node => f (name, node)
  rw [(valueAt?_eq_some_iff hwf).mpr hmem]
  rfl

/-- **What is read off the entries of reordered directories is the same up to order**, if it is the same for
    any two reordered entries of one name. -/
theorem Reordered.map_perm {β : Type} {f g : String × Node → β}
    (h : (directory entries).Reordered (directory others)) (hwf : EntriesWellFormed entries)
    (hwf' : EntriesWellFormed others)
    (hsame : ∀ name node node', (name, node) ∈ entries → (name, node') ∈ others →
      node.Reordered node' → f (name, node) = g (name, node')) :
    (entries.map f).Perm (others.map g) := by
  rw [map_eq_filterMap_names hwf, map_eq_filterMap_names hwf']
  have hlookup : ∀ name,
      (Text.valueAt? name entries).map (fun node => f (name, node)) =
        (Text.valueAt? name others).map fun node => g (name, node) := by
    intro name
    match hnode : Text.valueAt? name entries, hnode' : Text.valueAt? name others,
      h.valueAt? name with
    | none, none, .none => rfl
    | some node, some node', .some hreordered =>
      exact congrArg some (hsame name node node' (Text.mem_of_valueAt?_eq_some hnode)
        (Text.mem_of_valueAt?_eq_some hnode') hreordered)
  -- the same is read off for every name, and the names are the same up to order
  simp only [hlookup]
  exact (h.names_perm hwf hwf').filterMap _

end Entries

theorem entryDirectoryCount_eq_foldr (entries : List (String × Node)) :
    entryDirectoryCount entries =
      (entries.map fun entry => entry.2.directoryCount).foldr (· + ·) 0 := by
  induction entries with
  | nil => rfl
  | cons first rest ih => rw [entryDirectoryCount, ih, List.map_cons, List.foldr_cons]

/-- Reordered trees have as many directories. By induction on the tree. -/
theorem Reordered.directoryCount_eq {node other : Node} (h : node.Reordered other)
    (hwf : node.WellFormed) (hwf' : other.WellFormed) :
    other.directoryCount = node.directoryCount := by
  induction node using Node.induction generalizing other with
  | file content =>
    cases h.alike with
    | file => rfl
  | link target =>
    cases h.alike with
    | link => rfl
  | directory entries ih =>
    cases h.alike with
    | directory _ others =>
      simp only [WellFormed] at hwf hwf'
      have hcounts : (entries.map fun entry => entry.2.directoryCount).Perm
          (others.map fun entry => entry.2.directoryCount) := by
        refine h.map_perm hwf hwf' fun name node node' hmem hmem' hnode => ?_
        exact (ih name node hmem hnode (hwf.wellFormed_of_mem hmem)
          (hwf'.wellFormed_of_mem hmem')).symm
      rw [Node.directoryCount, Node.directoryCount, entryDirectoryCount_eq_foldr,
        entryDirectoryCount_eq_foldr]
      congr 1
      -- a sum does not depend on the order of its terms
      exact (hcounts.foldr_eq' (fun x _ y _ z => Nat.add_left_comm y x z) 0).symm

end Node

/-! ## Paths -/

/-- Two file systems that differ only in the order of the entries of directories, and of archives. -/
structure FileSystem.Reordered (fs other : FileSystem) : Prop where
  workingPlace_eq : other.workingPlace = fs.workingPlace
  closed_eq : other.closed = fs.closed
  root : fs.root.Reordered other.root

/-- Two targets of a path at the same place, where reordered nodes stand or nothing does. -/
inductive Target.Reordered : Target → Target → Prop
  | present (place : Place) {node other : Node} (hnode : node.Reordered other) :
    Reordered (.present place node) (.present place other)
  | vacant (parent : Place) (name : String) : Reordered (.vacant parent name) (.vacant parent name)

namespace FileSystem

/-- **The steps of a path lead alike in reordered trees**, if they do so after every link. By induction over
    the steps: each one looks at one place, where both trees have the same kind of node. -/
theorem follow_reordered {root root' : Node}
    {jump jump' : Place → List String → Except FileError Target} (hroot : root.Reordered root')
    (hjump : ∀ here steps, Related Target.Reordered (jump here steps) (jump' here steps))
    (here : Place) (steps : List String) :
    Related Target.Reordered (follow root jump here steps) (follow root' jump' here steps) := by
  induction steps generalizing here with
  | nil =>
    have hhere := hroot.at? here
    rw [follow, follow]
    generalize root.at? here = found at hhere ⊢
    generalize root'.at? here = found' at hhere ⊢
    cases hhere with
    | none => rfl
    | some hnode => exact .present here hnode
  | cons step rest ih =>
    have hhere := hroot.at? here
    rw [follow, follow]
    generalize root.at? here = found at hhere ⊢
    generalize root'.at? here = found' at hhere ⊢
    cases hhere with
    | none => rfl
    | some hnode =>
      cases hnode.alike with
      | file => rfl
      | link => rfl
      | directory entries others =>
        dsimp only
        by_cases hdot : step = "."
        · rw [if_pos hdot, if_pos hdot]
          exact ih here
        · by_cases hdots : step = ".."
          · rw [if_neg hdot, if_neg hdot, if_pos hdots, if_pos hdots]
            exact ih here.dropLast
          · rw [if_neg hdot, if_neg hdot, if_neg hdots, if_neg hdots]
            have hentry := hnode.valueAt? step
            generalize Text.valueAt? step entries = found at hentry ⊢
            generalize Text.valueAt? step others = found' at hentry ⊢
            cases hentry with
            | none =>
              by_cases hlast : rest.isEmpty = true
              · simp only [if_pos hlast]
                exact .vacant here step
              · simp only [if_neg hlast]
                rfl
            | some hchild =>
              cases hchild.alike with
              | file => exact ih (here ++ [step])
              | link target => exact hjump _ _
              | directory => exact ih (here ++ [step])

/-- By induction over the links that may be followed. -/
theorem followLinks_reordered {root root' : Node} (hroot : root.Reordered root') (budget : Nat)
    (here : Place) (steps : List String) :
    Related Target.Reordered (followLinks root budget here steps)
      (followLinks root' budget here steps) := by
  induction budget generalizing here steps with
  | zero =>
    unfold followLinks
    apply follow_reordered hroot
    intro there rest
    rfl
  | succ budget ih =>
    unfold followLinks
    exact follow_reordered hroot ih here steps

namespace Reordered

variable {fs other : FileSystem}

theorem startOf_eq (h : fs.Reordered other) (path : String) :
    other.startOf path = fs.startOf path := by
  unfold startOf
  rw [h.workingPlace_eq]

theorem workingDirectory_eq (h : fs.Reordered other) :
    other.workingDirectory = fs.workingDirectory := by
  unfold workingDirectory
  rw [h.workingPlace_eq]

theorem canList_eq (h : fs.Reordered other) (place : Place) : other.canList place = fs.canList place := by
  unfold canList
  rw [h.closed_eq]

/-- **A path leads to the same place** in reordered file systems. -/
theorem resolve (h : fs.Reordered other) (path : String) :
    Related Target.Reordered (fs.resolve path) (other.resolve path) := by
  unfold FileSystem.resolve
  by_cases hnul : path.toList.contains '\x00' = true
  · rw [if_pos hnul, if_pos hnul]
    rfl
  · by_cases hempty : path.isEmpty = true
    · rw [if_neg hnul, if_neg hnul, if_pos hempty, if_pos hempty]
      rfl
    · rw [if_neg hnul, if_neg hnul, if_neg hempty, if_neg hempty, h.startOf_eq]
      exact followLinks_reordered h.root linkLimit _ _

theorem nodeAt? (h : fs.Reordered other) (path : String) :
    Option.Rel Node.Reordered (fs.nodeAt? path) (other.nodeAt? path) := by
  unfold FileSystem.nodeAt?
  rcases (h.resolve path).cases with
    ⟨target, target', htarget, htarget', hsame⟩ | ⟨cause, hcause, hcause'⟩
  · rw [htarget, htarget']
    cases hsame with
    | vacant => exact .none
    | present place hnode => exact .some hnode
  · rw [hcause, hcause']
    exact .none

theorem isDirectory_eq (h : fs.Reordered other) (path : String) :
    other.isDirectory path = fs.isDirectory path := by
  have hnode := h.nodeAt? path
  unfold FileSystem.isDirectory
  generalize fs.nodeAt? path = found at hnode ⊢
  generalize other.nodeAt? path = found' at hnode ⊢
  cases hnode with
  | none => rfl
  | some hnode => cases hnode.alike <;> rfl

theorem isFile_eq (h : fs.Reordered other) (path : String) :
    other.isFile path = fs.isFile path := by
  have hnode := h.nodeAt? path
  unfold FileSystem.isFile
  generalize fs.nodeAt? path = found at hnode ⊢
  generalize other.nodeAt? path = found' at hnode ⊢
  cases hnode with
  | none => rfl
  | some hnode => cases hnode.alike <;> rfl

/-- What is listed is the same up to order. -/
theorem listDirectory (h : fs.Reordered other) (path : String) :
    Related List.Perm (fs.listDirectory path) (other.listDirectory path) := by
  unfold FileSystem.listDirectory
  rcases (h.resolve path).cases with
    ⟨target, target', htarget, htarget', hsame⟩ | ⟨cause, hcause, hcause'⟩
  · rw [htarget, htarget']
    cases hsame with
    | vacant => rfl
    | present place hnode =>
      cases hnode.alike with
      | file => rfl
      | link => rfl
      | directory entries others =>
        dsimp only
        rw [h.canList_eq]
        cases fs.canList place with
        | true => exact hnode.names_perm (wellFormed_of_resolve htarget) (wellFormed_of_resolve htarget')
        | false => rfl
  · rw [hcause, hcause']
    rfl

/-- What is read is the same, or two archives that differ in the order of their entries. -/
theorem readFile (h : fs.Reordered other) (path : String) :
    Related SameContent (fs.readFile path) (other.readFile path) := by
  unfold FileSystem.readFile
  rcases (h.resolve path).cases with
    ⟨target, target', htarget, htarget', hsame⟩ | ⟨cause, hcause, hcause'⟩
  · rw [htarget, htarget']
    cases hsame with
    | vacant => rfl
    | present place hnode =>
      cases hnode.alike with
      | file hcontent => exact hcontent
      | link => rfl
      | directory => rfl
  · rw [hcause, hcause']
    rfl

end Reordered

/-! ## Walks -/

section Walks

variable {fs other : FileSystem} {start : String}
  {enter : List Place → List String → Place → List (List String)}

/-- Sorted by their names, reordered entries with the same files at them are in the same order. -/
theorem sortedBy_entryFiles_eq {entries others : List (String × Node)} {opened : List Place}
    {trail : List String} {here : Place} (hwf : EntriesWellFormed entries)
    (hperm : (entries.map (entryFiles fs start enter opened trail here)).Perm
      (others.map (entryFiles other start enter opened trail here))) :
    Text.sortedBy Prod.fst (entries.map (entryFiles fs start enter opened trail here)) =
      Text.sortedBy Prod.fst (others.map (entryFiles other start enter opened trail here)) := by
  apply Text.sortedBy_eq_of_perm hperm
  have hnames : ((entries.map (entryFiles fs start enter opened trail here)).map Prod.fst).Nodup := by
    rw [List.map_map]
    exact hwf.nodup_names
  -- no name occurs twice, so sorting leaves no choice
  intro a ha b hb hsame
  exact List.inj_on_of_nodup_map hnames ha hb hsame

/-- **The files below a node do not depend on the order of any listing**, if what is below every directory
    entered through a link does not. By induction on the tree. -/
theorem filesIn_eq (h : fs.Reordered other) {node node' : Node} (hnode : node.Reordered node')
    (hwf : node.WellFormed) (hwf' : node'.WellFormed) (opened : List Place) (trail : List String)
    (here : Place) :
    filesIn other start enter opened trail here node' =
      filesIn fs start enter opened trail here node := by
  induction node using Node.induction generalizing node' opened trail here with
  | file content =>
    cases hnode.alike with
    | file => rw [filesIn, filesIn]
  | link target =>
    cases hnode.alike with
    | link => rw [filesIn, filesIn]
  | directory entries ih =>
    cases hnode.alike with
    | directory _ others =>
      simp only [Node.WellFormed] at hwf hwf'
      rw [filesIn, filesIn, h.canList_eq, filesAt_eq_map, filesAt_eq_map]
      have hperm : (entries.map (entryFiles fs start enter opened trail here)).Perm
          (others.map (entryFiles other start enter opened trail here)) := by
        refine hnode.map_perm hwf hwf' fun name child child' hmem hmem' hchild => ?_
        have hbelow := ih name child hmem hchild (hwf.wellFormed_of_mem hmem)
          (hwf'.wellFormed_of_mem hmem')
        cases hchild.alike with
        | file => rfl
        | directory below below' =>
          unfold entryFiles
          dsimp only
          rw [hbelow]
        | link target =>
          -- the link is resolved along the whole path, and leads to the same place
          unfold entryFiles
          dsimp only
          rcases (h.resolve (Path.joinAll start (trail ++ [name]))).cases with
            ⟨found, found', hfound, hfound', hsame⟩ | ⟨cause, hcause, hcause'⟩
          · rw [hfound, hfound']
            cases hsame with
            | vacant => rfl
            | present place hthere => cases hthere.alike <;> rfl
          · rw [hcause, hcause']
      rw [sortedBy_entryFiles_eq hwf hperm]

/-- By induction over the directories that may be entered through links. -/
theorem filesWithin_eq (h : fs.Reordered other) (start : String) (budget : Nat) :
    filesWithin other start budget = filesWithin fs start budget := by
  induction budget with
  | zero => rfl
  | succ budget ih =>
    funext opened trail here
    rw [filesWithin, filesWithin, ih]
    have hhere := h.root.at? here
    generalize hnode : fs.root.at? here = found at hhere ⊢
    generalize hnode' : other.root.at? here = found' at hhere ⊢
    cases hhere with
    | none => rfl
    | some hreordered =>
      exact filesIn_eq h hreordered (fs.wellFormed.at? hnode) (other.wellFormed.at? hnode') opened
        trail here

/-- **A walk lists the same files in the same order**, whatever the order of the listings. -/
theorem Reordered.filesBelow_eq (h : fs.Reordered other) (start : String) :
    other.filesBelow start = fs.filesBelow start := by
  unfold filesBelow
  rw [filesWithin_eq h, h.root.directoryCount_eq fs.wellFormed other.wellFormed]
  rcases (h.resolve start).cases with
    ⟨target, target', htarget, htarget', hsame⟩ | ⟨cause, hcause, hcause'⟩
  · rw [htarget, htarget']
    cases hsame with
    | vacant => rfl
    | present place hnode => cases hnode.alike <;> rfl
  · rw [hcause, hcause']

end Walks

end FileSystem

end QualifierDiscovery
