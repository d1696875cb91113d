import QualifierDiscovery.Files.Tree
import QualifierDiscovery.Proofs.Text.Order

/-!
# `Proofs.Files.Trees` — what stands at a place

Places are followed one name after the other (`at?_append`), and every node below a well-formed one is
well formed (`WellFormed.at?`). In a well-formed directory an entry is found by its name
(`valueAt?_eq_some_iff`), so a listing and a look-up tell the same. The directories of a tree are counted
by their places (`length_directoryPlaces`), and none stands deeper than there are directories
(`length_lt_directoryCount`). What holds of a directory whenever it holds of its entries is proved with
`Node.induction`.
-/

namespace QualifierDiscovery

/-! ## Entry names -/

/-- **A name of an entry** is not empty, is no dot or double dot and holds neither a slash nor a NUL. -/
theorem isEntryName_iff {name : String} :
    isEntryName name = true ↔ name ≠ "" ∧ name ≠ "." ∧ name ≠ ".." ∧
      '/' ∉ name.toList ∧ '\x00' ∉ name.toList := by
  unfold isEntryName
  simp only [Bool.and_eq_true, bne_iff_ne, ne_eq, List.all_eq_true, and_assoc]
  constructor
  · rintro ⟨hempty, hdot, hdots, hchars⟩
    exact ⟨hempty, hdot, hdots, fun hmem => (hchars _ hmem).1 rfl, fun hmem => (hchars _ hmem).2 rfl⟩
  · rintro ⟨hempty, hdot, hdots, hslash, hnul⟩
    refine ⟨hempty, hdot, hdots, fun c hc => ⟨?_, ?_⟩⟩
    · rintro rfl
      exact hslash hc
    · rintro rfl
      exact hnul hc

/-! ## Entries of a directory -/

namespace EntriesWellFormed

variable {entries : List (String × Node)} {name : String} {node : Node}

theorem isEntryName_of_mem (h : EntriesWellFormed entries) (hmem : (name, node) ∈ entries) :
    isEntryName name = true := by
  induction entries with
  | nil => exact absurd hmem List.not_mem_nil
  | cons first rest ih =>
    simp only [EntriesWellFormed] at h
    rcases List.mem_cons.mp hmem with hfirst | hrest
    · rw [← hfirst] at h
      exact h.1
    · exact ih h.2.2.2 hrest

theorem wellFormed_of_mem (h : EntriesWellFormed entries) (hmem : (name, node) ∈ entries) :
    node.WellFormed := by
  induction entries with
  | nil => exact absurd hmem List.not_mem_nil
  | cons first rest ih =>
    simp only [EntriesWellFormed] at h
    rcases List.mem_cons.mp hmem with hfirst | hrest
    · rw [← hfirst] at h
      exact h.2.2.1
    · exact ih h.2.2.2 hrest

theorem nodup_names (h : EntriesWellFormed entries) : (entries.map Prod.fst).Nodup := by
  induction entries with
  | nil => exact List.nodup_nil
  | cons first rest ih =>
    simp only [EntriesWellFormed] at h
    obtain ⟨-, hdistinct, -, hrest⟩ := h
    rw [List.map_cons, List.nodup_cons]
    refine ⟨fun hmem => ?_, ih hrest⟩
    obtain ⟨entry, hentry, hsame⟩ := List.mem_map.mp hmem
    exact hdistinct entry hentry hsame

end EntriesWellFormed

/-- **Looking up and listing agree.** -/
theorem valueAt?_eq_some_iff {entries : List (String × Node)} {name : String} {node : Node}
    (h : EntriesWellFormed entries) :
    Text.valueAt? name entries = some node ↔ (name, node) ∈ entries :=
  Text.valueAt?_eq_some_iff_of_nodup h.nodup_names

/-! ## Places -/

namespace Node

/-- What holds of a directory whenever it holds of all entries, and of whatever is no directory, holds of
    every node. -/
@[elab_as_elim]
theorem induction {motive : Node → Prop} (file : ∀ content, motive (.file content))
    (link : ∀ target, motive (.link target))
    (directory : ∀ entries, (∀ name node, (name, node) ∈ entries → motive node) →
      motive (.directory entries)) (node : Node) : motive node :=
  match node with
  | .file content => file content
  | .link target => link target
  | .directory entries =>
    directory entries fun name node hmem =>
      -- a node is smaller than the list of entries that it is in
      have : sizeOf node < sizeOf entries := by
        have hpair := List.sizeOf_lt_of_mem hmem
        simp only [Prod.mk.sizeOf_spec] at hpair
        omega
      induction file link directory node
  termination_by sizeOf node

theorem at?_directory_cons {entries : List (String × Node)} {name : String} {place : Place} :
    (directory entries).at? (name :: place) =
      (Text.valueAt? name entries).bind fun node => node.at? place := by
  rw [at?]
  cases Text.valueAt? name entries <;> rfl

theorem at?_append (node : Node) (place rest : Place) :
    node.at? (place ++ rest) = (node.at? place).bind fun found => found.at? rest := by
  induction place generalizing node with
  | nil => rw [List.nil_append, at?, Option.bind_some]
  | cons name place ih =>
    cases node with
    | file content => rfl
    | link target => rfl
    | directory entries =>
      rw [List.cons_append, at?_directory_cons, at?_directory_cons]
      cases Text.valueAt? name entries with
      | none => rfl
      | some child => exact ih child

/-- An entry of a directory stands at the directory's place and its own name. -/
theorem at?_concat {node : Node} {place : Place} {entries : List (String × Node)} {name : String}
    (h : node.at? place = some (directory entries)) :
    node.at? (place ++ [name]) = Text.valueAt? name entries := by
  rw [at?_append, h, Option.bind_some, at?_directory_cons]
  cases Text.valueAt? name entries with
  | none => rfl
  | some child => rw [Option.bind_some, at?]

theorem WellFormed.at? {node found : Node} {place : Place} (h : node.WellFormed)
    (hfound : node.at? place = some found) : found.WellFormed := by
  induction place generalizing node with
  | nil =>
    rw [Node.at?, Option.some.injEq] at hfound
    exact hfound ▸ h
  | cons name place ih =>
    cases node with
    | file content => exact absurd hfound (by simp [Node.at?])
    | link target => exact absurd hfound (by simp [Node.at?])
    | directory entries =>
      rw [at?_directory_cons] at hfound
      obtain ⟨child, hchild, hat⟩ := Option.bind_eq_some_iff.mp hfound
      simp only [WellFormed] at h
      exact ih (h.wellFormed_of_mem (Text.mem_of_valueAt?_eq_some hchild)) hat

/-- The names that lead to a node of a well-formed tree are names of entries. -/
theorem WellFormed.isEntryName_of_mem {node found : Node} {place : Place} (h : node.WellFormed)
    (hfound : node.at? place = some found) : ∀ name ∈ place, isEntryName name = true := by
  induction place generalizing node with
  | nil => exact fun name hname => absurd hname List.not_mem_nil
  | cons first place ih =>
    cases node with
    | file content => exact absurd hfound (by simp [Node.at?])
    | link target => exact absurd hfound (by simp [Node.at?])
    | directory entries =>
      rw [at?_directory_cons] at hfound
      obtain ⟨child, hchild, hat⟩ := Option.bind_eq_some_iff.mp hfound
      simp only [WellFormed] at h
      have hmem := Text.mem_of_valueAt?_eq_some hchild
      intro name hname
      rcases List.mem_cons.mp hname with rfl | hrest
      · exact h.isEntryName_of_mem hmem
      · exact ih (h.wellFormed_of_mem hmem) hat name hrest

/-- What has a node below it is a directory. -/
theorem exists_directory_of_at?_append {node found : Node} {place rest : Place} (hrest : rest ≠ [])
    (h : node.at? (place ++ rest) = some found) :
    ∃ entries, node.at? place = some (directory entries) := by
  rw [at?_append] at h
  obtain ⟨parent, hparent, hbelow⟩ := Option.bind_eq_some_iff.mp h
  obtain ⟨name, more, rfl⟩ := List.exists_cons_of_ne_nil hrest
  cases parent with
  | file content => exact absurd hbelow (by simp [at?])
  | link target => exact absurd hbelow (by simp [at?])
  | directory entries => exact ⟨entries, hparent⟩

/-- What leads to a directory is one. -/
theorem exists_eq_directory {node : Node} {place : Place} {below : List (String × Node)}
    (h : node.at? place = some (directory below)) : ∃ entries, node = directory entries := by
  cases node with
  | directory entries => exact ⟨entries, rfl⟩
  | file content => cases place <;> exact absurd h (by simp [at?])
  | link target => cases place <;> exact absurd h (by simp [at?])

/-! ## The directories of a tree -/

mutual

/-- The places of the directories that a node holds, itself included. -/
def directoryPlaces : Node → List Place
  | .file _ => []
  | .link _ => []
  | .directory entries => [] :: entryDirectoryPlaces entries

/-- The places of the directories that the entries of a directory hold. -/
def entryDirectoryPlaces : List (String × Node) → List Place
  | [] => []
  | (name, node) :: rest => node.directoryPlaces.map (name :: ·) ++ entryDirectoryPlaces rest

end

theorem mem_entryDirectoryPlaces {entries : List (String × Node)} {place : Place} :
    place ∈ entryDirectoryPlaces entries ↔
      ∃ name node below, (name, node) ∈ entries ∧ below ∈ node.directoryPlaces ∧ place = name :: below := by
  induction entries with
  | nil => simp [entryDirectoryPlaces]
  | cons first rest ih =>
    obtain ⟨firstName, firstNode⟩ := first
    rw [entryDirectoryPlaces, List.mem_append, List.mem_map, ih]
    constructor
    · rintro (⟨below, hbelow, rfl⟩ | ⟨name, node, below, hmem, hbelow, rfl⟩)
      · exact ⟨firstName, firstNode, below, List.mem_cons_self, hbelow, rfl⟩
      · exact ⟨name, node, below, List.mem_cons_of_mem _ hmem, hbelow, rfl⟩
    · rintro ⟨name, node, below, hmem, hbelow, rfl⟩
      rcases List.mem_cons.mp hmem with hfirst | hrest
      · obtain ⟨rfl, rfl⟩ := Prod.mk.inj hfirst
        exact .inl ⟨below, hbelow, rfl⟩
      · exact .inr ⟨name, node, below, hrest, hbelow, rfl⟩

/-- As many places as directories. -/
theorem length_directoryPlaces (node : Node) : node.directoryPlaces.length = node.directoryCount := by
  induction node using Node.induction with
  | file content => rfl
  | link target => rfl
  | directory entries ih =>
    rw [directoryPlaces, directoryCount, List.length_cons, Nat.add_right_cancel_iff]
    induction entries with
    | nil => rfl
    | cons first rest ihEntries =>
      obtain ⟨name, node⟩ := first
      rw [entryDirectoryPlaces, entryDirectoryCount, List.length_append, List.length_map,
        ih name node List.mem_cons_self,
        ihEntries fun other child hchild => ih other child (List.mem_cons_of_mem _ hchild)]

/-- Every directory is among them. -/
theorem mem_directoryPlaces {node : Node} {place : Place} {below : List (String × Node)}
    (h : node.at? place = some (directory below)) : place ∈ node.directoryPlaces := by
  induction place generalizing node with
  | nil =>
    obtain ⟨entries, rfl⟩ := exists_eq_directory h
    exact List.mem_cons_self
  | cons name place ih =>
    obtain ⟨entries, rfl⟩ := exists_eq_directory h
    rw [at?_directory_cons] at h
    obtain ⟨child, hchild, hat⟩ := Option.bind_eq_some_iff.mp h
    exact List.mem_cons_of_mem _ (mem_entryDirectoryPlaces.mpr
      ⟨name, child, place, Text.mem_of_valueAt?_eq_some hchild, ih hat, rfl⟩)

theorem directoryCount_le_of_mem {entries : List (String × Node)} {name : String} {node : Node}
    (h : (name, node) ∈ entries) : node.directoryCount ≤ entryDirectoryCount entries := by
  induction entries with
  | nil => exact absurd h List.not_mem_nil
  | cons first rest ih =>
    rw [entryDirectoryCount.eq_def]
    rcases List.mem_cons.mp h with hfirst | hrest
    · obtain ⟨rfl, rfl⟩ := Prod.mk.inj hfirst
      exact Nat.le_add_right _ _
    · exact Nat.le_add_left_of_le (ih hrest)

/-- A directory does not stand deeper than there are directories. -/
theorem length_lt_directoryCount {node : Node} {place : Place} {below : List (String × Node)}
    (h : node.at? place = some (directory below)) : place.length < node.directoryCount := by
  induction place generalizing node with
  | nil =>
    obtain ⟨entries, rfl⟩ := exists_eq_directory h
    rw [directoryCount, List.length_nil]
    omega
  | cons name place ih =>
    obtain ⟨entries, rfl⟩ := exists_eq_directory h
    rw [at?_directory_cons] at h
    obtain ⟨child, hchild, hat⟩ := Option.bind_eq_some_iff.mp h
    have hdepth := ih hat
    have hcount := directoryCount_le_of_mem (Text.mem_of_valueAt?_eq_some hchild)
    rw [directoryCount, List.length_cons]
    omega

/-! ## Trees without links -/

/-- No place of the tree holds a link. -/
def LinkFree (node : Node) : Prop := ∀ place target, node.at? place ≠ some (link target)

theorem LinkFree.ne_link {node : Node} (h : node.LinkFree) (target : String) : node ≠ link target := by
  rintro rfl
  exact h [] target rfl

theorem LinkFree.at? {node found : Node} {place : Place} (h : node.LinkFree)
    (hfound : node.at? place = some found) : found.LinkFree := by
  intro rest target hlink
  apply h (place ++ rest) target
  rw [at?_append, hfound]
  exact hlink

theorem LinkFree.of_mem {entries : List (String × Node)} {name : String} {node : Node}
    (h : (directory entries).LinkFree) (hwf : EntriesWellFormed entries)
    (hmem : (name, node) ∈ entries) : node.LinkFree := by
  have hat : (directory entries).at? [name] = some node := by
    rw [at?_directory_cons, (valueAt?_eq_some_iff hwf).mpr hmem, Option.bind_some, Node.at?]
  exact h.at? hat

theorem linkFree_file (content : ByteArray) : (file content).LinkFree := by
  intro place target
  cases place <;> simp [Node.at?]

theorem linkFree_directory {entries : List (String × Node)}
    (h : ∀ entry ∈ entries, entry.2.LinkFree) : (directory entries).LinkFree := by
  intro place target hlink
  cases place with
  | nil => exact absurd hlink (by simp [Node.at?])
  | cons name rest =>
    rw [at?_directory_cons] at hlink
    obtain ⟨child, hchild, hat⟩ := Option.bind_eq_some_iff.mp hlink
    exact h _ (Text.mem_of_valueAt?_eq_some hchild) rest target hat

end Node

end QualifierDiscovery
