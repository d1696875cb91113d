import QualifierDiscovery.Text.Order

/-!
# File trees

A file system is a tree of directories whose leaves are files and symbolic links. The entries of a
directory stand in the order in which a listing gives them; no two have the same name.

- `Node.at?` finds the node that a list of names leads to, through directories only.
- `Node.alter` changes one entry of a tree; `Node.WellFormed.alter` shows that it stays well formed.
-/

namespace QualifierDiscovery

/-- A file, a symbolic link or a directory. -/
inductive Node
  | file (content : ByteArray)
  | link (target : String)
  | directory (entries : List (String × Node))

/-- The names from the root to a node. -/
abbrev Place := List String

/-- A name that an entry of a directory can have. -/
def isEntryName (name : String) : Bool :=
  name != "" && name != "." && name != ".." && name.toList.all fun c => c != '/' && c != '\x00'

mutual

/-- In every directory the entries have proper names, no two of them the same. -/
def Node.WellFormed : Node → Prop
  | .file _ => True
  | .link _ => True
  | .directory entries => EntriesWellFormed entries

/-- The entries have proper names, no two of them the same, and lead to well-formed nodes. -/
def EntriesWellFormed : List (String × Node) → Prop
  | [] => True
  | (name, node) :: rest =>
    isEntryName name = true ∧ (∀ entry ∈ rest, entry.1 ≠ name) ∧ node.WellFormed ∧
      EntriesWellFormed rest

end

namespace Node

/-- The node is a directory. -/
def isDirectory : Node → Bool
  | .directory _ => true
  | _ => false

/-- The node is a regular file. -/
def isFile : Node → Bool
  | .file _ => true
  | _ => false

/-- The node that a list of names leads to, through directories only. -/
def at? : Node → Place → Option Node
  | node, [] => some node
  | .directory entries, name :: place =>
    match Text.valueAt? name entries with
    | some node => node.at? place
    | none => none
  | .file _, _ :: _ => none
  | .link _, _ :: _ => none

mutual

/-- How many directories a node holds, itself included. -/
def directoryCount : Node → Nat
  | .file _ => 0
  | .link _ => 0
  | .directory entries => entryDirectoryCount entries + 1

/-- How many directories the entries of a directory hold. -/
def entryDirectoryCount : List (String × Node) → Nat
  | [] => 0
  | (_, node) :: rest => node.directoryCount + entryDirectoryCount rest

end

/-- The entries with the one of a name put, replaced or removed: `change` is given what stands there
and says what is to stand there. -/
def alterEntry (change : Option Node → Option Node) (name : String) :
    List (String × Node) → List (String × Node)
  | [] =>
    match change none with
    | some node => [(name, node)]
    | none => []
  | (first, node) :: rest =>
    if first = name then
      match change (some node) with
      | some changed => (first, changed) :: rest
      | none => rest
    else (first, node) :: alterEntry change name rest

/-- The tree with the node at a place changed. A place that no directory leads to changes nothing,
and the root is not removed. -/
def alter (change : Option Node → Option Node) : Place → Node → Node
  | [], node => (change (some node)).getD node
  | [name], .directory entries => .directory (alterEntry change name entries)
  | name :: place, .directory entries =>
    .directory (alterEntry (fun child => child.map (alter change place)) name entries)
  | _ :: _, .file content => .file content
  | _ :: _, .link target => .link target

end Node

attribute [grind =] Node.WellFormed EntriesWellFormed Node.at? Node.alterEntry Node.alter

/-! ## Well-formed trees stay well formed -/

theorem Node.name_mem_alterEntry {change : Option Node → Option Node} {name : String}
    {entries : List (String × Node)} {entry : String × Node}
    (h : entry ∈ Node.alterEntry change name entries) :
    entry.1 = name ∨ ∃ old ∈ entries, old.1 = entry.1 := by
  induction entries with
  | nil =>
    unfold Node.alterEntry at h
    split at h
    · exact .inl (by simp_all)
    · simp at h
  | cons first rest ih =>
    obtain ⟨firstName, node⟩ := first
    unfold Node.alterEntry at h
    split at h
    · next same =>
      split at h
      · rcases List.mem_cons.1 h with h | h
        · exact .inl (by simp [h, same])
        · exact .inr ⟨entry, List.mem_cons_of_mem _ h, rfl⟩
      · exact .inr ⟨entry, List.mem_cons_of_mem _ h, rfl⟩
    · rcases List.mem_cons.1 h with h | h
      · exact .inr ⟨(firstName, node), by simp, by simp [h]⟩
      · rcases ih h with h | ⟨old, mem, same⟩
        · exact .inl h
        · exact .inr ⟨old, List.mem_cons_of_mem _ mem, same⟩

/-- A change of an entry that gives well-formed nodes keeps the entries well formed. -/
theorem EntriesWellFormed.alterEntry {change : Option Node → Option Node} {name : String}
    {entries : List (String × Node)} (entriesOk : EntriesWellFormed entries)
    (nameOk : isEntryName name = true)
    (changeOk : ∀ old node, (∀ n, old = some n → n.WellFormed) → change old = some node →
      node.WellFormed) :
    EntriesWellFormed (Node.alterEntry change name entries) := by
  induction entries with
  | nil =>
    unfold Node.alterEntry
    split
    · next node made =>
      simp only [EntriesWellFormed]
      exact ⟨nameOk, by simp, changeOk none node (by simp) made, trivial⟩
    · exact entriesOk
  | cons first rest ih =>
    obtain ⟨firstName, node⟩ := first
    simp only [EntriesWellFormed] at entriesOk
    obtain ⟨firstOk, distinct, nodeOk, restOk⟩ := entriesOk
    unfold Node.alterEntry
    split
    · next same =>
      split
      · next changed made =>
        simp only [EntriesWellFormed]
        exact ⟨firstOk, distinct,
          changeOk (some node) changed (fun n h => by cases h; exact nodeOk) made, restOk⟩
      · exact restOk
    · next different =>
      simp only [EntriesWellFormed]
      refine ⟨firstOk, ?_, nodeOk, ih restOk⟩
      intro entry mem
      rcases Node.name_mem_alterEntry mem with h | ⟨old, oldMem, same⟩
      · exact fun h' => different (h'.symm.trans h)
      · exact same ▸ distinct old oldMem

/-- A change of a tree that gives well-formed nodes keeps the tree well formed. -/
theorem Node.WellFormed.alter {change : Option Node → Option Node} {place : Place} {node : Node}
    (nodeOk : node.WellFormed) (placeOk : place.all isEntryName = true)
    (changeOk : ∀ old node, (∀ n, old = some n → n.WellFormed) → change old = some node →
      node.WellFormed) :
    (node.alter change place).WellFormed := by
  induction place generalizing node with
  | nil =>
    unfold Node.alter
    cases made : change (some node) with
    | none => exact nodeOk
    | some changed => exact changeOk (some node) changed (fun n h => by cases h; exact nodeOk) made
  | cons name place ih =>
    simp only [List.all_cons, Bool.and_eq_true] at placeOk
    match node, place with
    | .file _, _ => simp only [Node.alter, Node.WellFormed]
    | .link _, _ => simp only [Node.alter, Node.WellFormed]
    | .directory entries, [] =>
      simp only [Node.alter, Node.WellFormed] at nodeOk ⊢
      exact nodeOk.alterEntry placeOk.1 changeOk
    | .directory entries, next :: place =>
      simp only [Node.alter, Node.WellFormed] at nodeOk ⊢
      refine nodeOk.alterEntry placeOk.1 ?_
      intro old made oldOk h
      obtain ⟨child, rfl, rfl⟩ := Option.map_eq_some_iff.1 h
      exact ih (oldOk child rfl) placeOk.2

end QualifierDiscovery
