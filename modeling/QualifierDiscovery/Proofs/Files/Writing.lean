import QualifierDiscovery.Files.Edit
import QualifierDiscovery.Proofs.Files.Resolution

/-!
# `Proofs.Files.Writing` — a file that was written is read back

Writing a file changes the tree at one place, where a file stood or nothing. A path does not see the
difference but at that place: whatever its steps can see of a node, its kind and the target of a link, is as
it was (`kindAt?_alter`). So the steps that led to the place, or to the free name there, lead to the file now
(`followLinks_of_shows`), and reading gives what was written (`readFile_writeFile`).
-/

namespace QualifierDiscovery

/-! ## Changing one place -/

namespace Node

variable {entries : List (String × Node)} {name : String} {leaf : Node} {parent place : Place}
  {change : Option Node → Option Node} {root node : Node}

/-- What the steps of a path can see of a node. -/
inductive Kind
  | file
  | directory
  | link (target : String)

/-- The kind of a node. -/
def kind : Node → Kind
  | .file _ => .file
  | .link target => .link target
  | .directory _ => .directory

/-- The kind of the node at a place. -/
def kindAt? (root : Node) (place : Place) : Option Kind := (root.at? place).map kind

theorem kind_eq_file_iff : node.kind = .file ↔ ∃ content, node = file content := by
  cases node <;> simp [kind]

theorem kind_eq_directory_iff : node.kind = .directory ↔ ∃ entries, node = directory entries := by
  cases node <;> simp [kind]

theorem kind_eq_link_iff {target : String} : node.kind = .link target ↔ node = link target := by
  cases node <;> simp [kind]

/-- Changing an entry changes what is found for its own name. -/
theorem valueAt?_alterEntry (h : change (Text.valueAt? name entries) = some node) (other : String) :
    Text.valueAt? other (alterEntry change name entries) =
      if name = other then some node else Text.valueAt? other entries := by
  induction entries with
  | nil =>
    rw [Text.valueAt?] at h
    rw [alterEntry, h]
    simp only [Text.valueAt?]
  | cons entry rest ih =>
    obtain ⟨first, found⟩ := entry
    unfold alterEntry
    rw [Text.valueAt?] at h
    by_cases hfirst : first = name
    · rw [if_pos hfirst] at h ⊢
      rw [h]
      by_cases hother : name = other
      · simp [Text.valueAt?, hfirst, hother]
      · simp [Text.valueAt?, hfirst, hother]
    · rw [if_neg hfirst] at h ⊢
      by_cases hsame : first = other
      · have hother : name ≠ other := fun hname => hfirst (hsame.trans hname.symm)
        simp [Text.valueAt?, hsame, hother]
      · simp only [Text.valueAt?, if_neg hsame, ih h]

theorem alter_directory_cons (hplace : place ≠ []) :
    (directory entries).alter change (name :: place) =
      directory (alterEntry (fun child => child.map (alter change place)) name entries) := by
  obtain ⟨next, rest, rfl⟩ := List.exists_cons_of_ne_nil hplace
  rw [alter]
  exact hplace

theorem kindAt?_directory_cons :
    (directory entries).kindAt? (name :: place) =
      (Text.valueAt? name entries).bind fun child => child.kindAt? place := by
  rw [kindAt?, at?_directory_cons, Option.map_bind]
  rfl

/-- A leaf that was put somewhere stands there. By induction over the names that lead to its directory. -/
theorem at?_alter_self (h : root.at? parent = some (directory entries)) :
    (root.alter (fun _ => some leaf) (parent ++ [name])).at? (parent ++ [name]) = some leaf := by
  induction parent generalizing root with
  | nil =>
    obtain rfl : root = directory entries := Option.some.inj h
    rw [List.nil_append, alter, at?_directory_cons, valueAt?_alterEntry rfl, if_pos rfl, Option.bind_some,
      at?]
  | cons first rest ih =>
    obtain ⟨others, rfl⟩ := exists_eq_directory h
    rw [at?_directory_cons] at h
    obtain ⟨child, hchild, hparent⟩ := Option.bind_eq_some_iff.mp h
    rw [List.cons_append, alter_directory_cons (by simp), at?_directory_cons,
      valueAt?_alterEntry (by rw [hchild]; rfl), if_pos rfl, Option.bind_some]
    exact ih hparent

/-- **A file that was put somewhere hides nothing**: what a path could see at any place it sees there
    still, if a file stood at the place or nothing. -/
theorem kindAt?_alter {content : ByteArray} {seen : Kind} (h : root.at? parent = some (directory entries))
    (hold : ∀ old, Text.valueAt? name entries = some old → old.kind = .file)
    (hseen : root.kindAt? place = some seen) :
    (root.alter (fun _ => some (file content)) (parent ++ [name])).kindAt? place = some seen := by
  induction parent generalizing root place with
  | nil =>
    obtain rfl : root = directory entries := Option.some.inj h
    rw [List.nil_append, alter]
    cases place with
    | nil => exact hseen
    | cons next more =>
      -- under the name of the file nothing could be seen but a file, which is still one
      rw [kindAt?_directory_cons] at hseen ⊢
      rw [valueAt?_alterEntry rfl]
      by_cases hname : name = next
      · subst hname
        obtain ⟨old, hvalue, hbelow⟩ := Option.bind_eq_some_iff.mp hseen
        obtain ⟨before, rfl⟩ := kind_eq_file_iff.mp (hold old hvalue)
        rw [if_pos rfl, Option.bind_some]
        cases more with
        | nil => exact hbelow
        | cons other more => exact absurd hbelow (by simp [kindAt?, at?])
      · rw [if_neg hname]
        exact hseen
  | cons first rest ih =>
    obtain ⟨others, rfl⟩ := exists_eq_directory h
    rw [at?_directory_cons] at h
    obtain ⟨child, hchild, hparent⟩ := Option.bind_eq_some_iff.mp h
    rw [List.cons_append, alter_directory_cons (by simp)]
    cases place with
    | nil => exact hseen
    | cons next more =>
      -- the place goes the same way as the file, or into an entry that is left as it is
      rw [kindAt?_directory_cons] at hseen ⊢
      rw [valueAt?_alterEntry (by rw [hchild]; rfl)]
      by_cases hname : first = next
      · subst hname
        rw [hchild] at hseen
        rw [if_pos rfl]
        exact ih hparent hseen
      · rw [if_neg hname]
        exact hseen

end Node

namespace Target

/-- Where a target stands, or could stand. -/
def place : Target → Place
  | .present place _ => place
  | .vacant parent name => parent ++ [name]

/-- What the target says is so in the tree. -/
def Stands (root : Node) : Target → Prop
  | .present place node => root.at? place = some node
  | .vacant parent name =>
    (∃ entries, root.at? parent = some (.directory entries)) ∧ root.at? (parent ++ [name]) = none

end Target

/-! ## Following steps -/

namespace FileSystem

open Node (Kind)

section Following

variable {root changed : Node} {jump : Place → List String → Except FileError Target} {here place : Place}
  {names : List String} {target : Target} {content : ByteArray}

/-- What steps lead to stands there, if that is so after every link. -/
theorem Leads.stands
    (hjump : ∀ here names target, jump here names = .ok target → target.Stands root)
    (h : Leads root jump here names target) : target.Stands root := by
  induction h with
  | here hhere => exact hhere
  | dot _ _ ih => exact ih
  | dots _ _ ih => exact ih
  | free hhere _ hfree => exact ⟨⟨_, hhere⟩, hfree⟩
  | link _ _ _ hlink => exact hjump _ _ _ hlink
  | entry _ _ _ _ _ ih => exact ih

theorem followLinks_stands {budget : Nat} (h : followLinks root budget here names = .ok target) :
    target.Stands root := by
  induction budget generalizing here names target with
  | zero =>
    apply (leads_of_follow h).stands
    intro _ _ _ hjump
    exact absurd hjump (by simp)
  | succ budget ih =>
    apply (leads_of_follow h).stands
    intro _ _ _ hjump
    exact ih hjump

/-! ## A tree with one file more -/

/-- The changed tree has a file at the place and shows everything that the tree before showed. -/
structure Shows (root changed : Node) (place : Place) (content : ByteArray) : Prop where
  file : changed.at? place = some (.file content)
  kindAt : ∀ place seen, root.kindAt? place = some seen → changed.kindAt? place = some seen

namespace Shows

variable (hshows : Shows root changed place content) {other : Place}

include hshows

theorem exists_at? {node : Node} (h : root.at? other = some node) :
    ∃ found, changed.at? other = some found ∧ found.kind = node.kind := by
  have hseen : root.kindAt? other = some node.kind := by rw [Node.kindAt?, h, Option.map_some]
  exact Option.map_eq_some_iff.mp (hshows.kindAt other node.kind hseen)

theorem exists_directory {entries : List (String × Node)} (h : root.at? other = some (.directory entries)) :
    ∃ entries, changed.at? other = some (.directory entries) := by
  obtain ⟨found, hfound, hkind⟩ := hshows.exists_at? h
  obtain ⟨entries, rfl⟩ := Node.kind_eq_directory_iff.mp hkind
  exact ⟨entries, hfound⟩

theorem link {text : String} (h : root.at? other = some (.link text)) :
    changed.at? other = some (.link text) := by
  obtain ⟨found, hfound, hkind⟩ := hshows.exists_at? h
  rw [hfound, Node.kind_eq_link_iff.mp hkind]

theorem exists_entry {node : Node} (h : root.at? other = some node) (hlink : ∀ text, node ≠ .link text) :
    ∃ found, changed.at? other = some found ∧ ∀ text, found ≠ .link text := by
  obtain ⟨found, hfound, hkind⟩ := hshows.exists_at? h
  refine ⟨found, hfound, ?_⟩
  intro text hsame
  rw [hsame] at hkind
  exact hlink text (Node.kind_eq_link_iff.mp hkind.symm)

end Shows

/-- **Steps that led to the place lead to its file**, if that is so after every link. By induction over the
    steps: each finds in the changed tree what it found before, but for a last one to a free name. -/
theorem Leads.of_shows {jump' : Place → List String → Except FileError Target}
    (hshows : Shows root changed place content)
    (hjump : ∀ here names target, jump here names = .ok target → target.place = place →
      jump' here names = .ok (.present place (.file content)))
    (h : Leads root jump here names target) (hplace : target.place = place) :
    Leads changed jump' here names (.present place (.file content)) := by
  induction h with
  | here hhere =>
    obtain rfl := hplace
    exact .here hshows.file
  | dot hhere _ ih =>
    obtain ⟨entries, hdirectory⟩ := hshows.exists_directory hhere
    exact .dot hdirectory (ih hplace)
  | dots hhere _ ih =>
    obtain ⟨entries, hdirectory⟩ := hshows.exists_directory hhere
    exact .dots hdirectory (ih hplace)
  | free hhere hname hfree =>
    -- the only step that finds something else: the name is no longer free
    obtain rfl := hplace
    obtain ⟨entries, hdirectory⟩ := hshows.exists_directory hhere
    exact .entry hdirectory hname hshows.file (by simp) (.here hshows.file)
  | link hhere hname hlink hjumped =>
    obtain ⟨entries, hdirectory⟩ := hshows.exists_directory hhere
    exact .link hdirectory hname (hshows.link hlink) (hjump _ _ _ hjumped hplace)
  | entry hhere hname hnode hlink _ ih =>
    obtain ⟨entries, hdirectory⟩ := hshows.exists_directory hhere
    obtain ⟨found, hfound, hnoLink⟩ := hshows.exists_entry hnode hlink
    exact .entry hdirectory hname hfound hnoLink (ih hplace)

theorem followLinks_of_shows {budget : Nat} (hshows : Shows root changed place content)
    (h : followLinks root budget here names = .ok target) (hplace : target.place = place) :
    followLinks changed budget here names = .ok (.present place (.file content)) := by
  induction budget generalizing here names target with
  | zero =>
    refine ((leads_of_follow h).of_shows hshows ?_ hplace).follow
    intro _ _ _ hjump
    exact absurd hjump (by simp)
  | succ budget ih =>
    refine ((leads_of_follow h).of_shows hshows ?_ hplace).follow
    intro _ _ _ hjump htarget
    exact ih hjump htarget

end Following

/-! ## Writing and reading -/

section Writing

variable {fs written : FileSystem} {path : String} {content : ByteArray}

/-- Where a file stands or nothing, a file can be put. -/
theorem shows_alter {root : Node} {target : Target} (content : ByteArray) (hstands : target.Stands root)
    (hfile : ∀ place node, target = .present place node → node.kind = .file) :
    Shows root (root.alter (fun _ => some (.file content)) target.place) target.place content := by
  cases target with
  | vacant parent name =>
    obtain ⟨⟨entries, hparent⟩, hfree⟩ := hstands
    rw [Node.at?_concat hparent] at hfree
    have hold : ∀ old, Text.valueAt? name entries = some old → old.kind = .file := by
      intro old hvalue
      exact absurd (hfree.symm.trans hvalue) (by simp)
    exact ⟨Node.at?_alter_self hparent, fun _ _ => Node.kindAt?_alter hparent hold⟩
  | present place node =>
    have hkind := hfile place node rfl
    rcases List.eq_nil_or_concat' place with rfl | ⟨parent, name, rfl⟩
    · -- the tree is itself a file
      obtain rfl : root = node := Option.some.inj hstands
      obtain ⟨before, rfl⟩ := Node.kind_eq_file_iff.mp hkind
      refine ⟨rfl, ?_⟩
      intro place seen hseen
      cases place with
      | nil => exact hseen
      | cons name rest => exact absurd hseen (by simp [Node.kindAt?, Node.at?])
    · obtain ⟨entries, hparent⟩ := Node.exists_directory_of_at?_append (by simp) hstands
      have hold : ∀ old, Text.valueAt? name entries = some old → old.kind = .file := by
        intro old hvalue
        have hnode : some node = some old := hstands.symm.trans ((Node.at?_concat hparent).trans hvalue)
        rwa [← Option.some.inj hnode]
      exact ⟨Node.at?_alter_self hparent, fun _ _ => Node.kindAt?_alter hparent hold⟩

theorem all_isEntryName_of_stands {target : Target} (hstands : target.Stands fs.root)
    (hname : ∀ parent name, target = .vacant parent name → isEntryName name = true) :
    target.place.all isEntryName = true := by
  rw [List.all_eq_true]
  cases target with
  | present place node => exact fs.wellFormed.isEntryName_of_mem hstands
  | vacant parent name =>
    obtain ⟨⟨entries, hparent⟩, -⟩ := hstands
    intro other hother
    rcases List.mem_append.mp hother with hmem | hmem
    · exact fs.wellFormed.isEntryName_of_mem hparent other hmem
    · rw [List.mem_singleton.mp hmem]
      exact hname parent name rfl

/-- What writing does when it succeeds: it puts a file where the path leads to a file, or to a free name
    that an entry can have. -/
theorem exists_target_of_writeFile (h : fs.writeFile path content = .ok written) :
    ∃ target, fs.resolve path = .ok target ∧ written = fs.putLeaf target.place (.file content) ∧
      (∀ place node, target = .present place node → node.kind = .file) ∧
      ∀ parent name, target = .vacant parent name → isEntryName name = true := by
  unfold writeFile at h
  split at h
  · next place before hresolve =>
    obtain rfl := Except.ok.inj h
    refine ⟨_, hresolve, rfl, ?_, ?_⟩
    · rintro _ _ ⟨rfl, rfl⟩
      rfl
    · exact fun _ _ hvacant => absurd hvacant (by simp)
  · exact absurd h (by simp)
  · next parent name hresolve =>
    split at h
    · next hname =>
      obtain rfl := Except.ok.inj h
      refine ⟨_, hresolve, rfl, ?_, ?_⟩
      · exact fun _ _ hpresent => absurd hpresent (by simp)
      · rintro _ _ ⟨rfl, rfl⟩
        exact hname
    · exact absurd h (by simp)
  · split at h <;> exact absurd h (by simp)

/-- **A file that was written is read back**, by the same path, whatever links it goes through. -/
theorem readFile_writeFile (h : fs.writeFile path content = .ok written) :
    written.readFile path = .ok content := by
  obtain ⟨target, hresolve, rfl, hfile, hname⟩ := exists_target_of_writeFile h
  obtain ⟨hnul, hempty, hfollow⟩ := resolve_eq_ok_iff.mp hresolve
  have hstands := followLinks_stands hfollow
  have hplace : target.place.all isEntryName = true ∧ isLeaf (.file content) = true :=
    ⟨all_isEntryName_of_stands hstands hname, rfl⟩
  have hread : (fs.putLeaf target.place (.file content)).resolve path =
      .ok (.present target.place (.file content)) := by
    refine resolve_eq_ok_iff.mpr ⟨hnul, hempty, ?_⟩
    have hagain := followLinks_of_shows (shows_alter content hstands hfile) hfollow rfl
    rw [putLeaf, dif_pos hplace]
    exact hagain
  rw [readFile, hread]

/-- A file that holds the bytes of a text is read as that text. -/
theorem readText_of_readFile {text : String} (h : fs.readFile path = .ok (Text.encode text)) :
    fs.readText path = .ok text := by
  have hdecode : Text.decode? (Text.encode text) = some text := dif_pos text.isValidUTF8
  rw [readText, h]
  simp only [bind, Except.bind, hdecode]

/-- A text that was written is read back. -/
theorem readText_writeFile {text : String} (h : fs.writeFile path (Text.encode text) = .ok written) :
    written.readText path = .ok text :=
  readText_of_readFile (readFile_writeFile h)

end Writing

end FileSystem

end QualifierDiscovery
