/-!
# Sorted sets and maps of texts

Texts are ordered by their code points, which is also the order of their UTF-8 bytes. A sorted set
is a strictly increasing list of texts; a sorted map is a list of pairs whose keys are strictly
increasing, and a later value for a key replaces the earlier one.

- `putBy` puts a member into a list sorted by a key and keeps it sorted (`IncreasingBy.putBy`).
- `sortedSet` and `putSorted` are its uses for sets and maps.
- `sortedBy` sorts any list by a text read off its members.
-/

namespace QualifierDiscovery.Text

/-- The keys of the members increase from each one to the next; so no two are the same. -/
def IncreasingBy {α : Type} (key : α → String) (members : List α) : Prop :=
  members.Pairwise fun a b => key a < key b

/-- A sorted list with a new member, in place of the one that has the same key, if any. -/
def putBy {α : Type} (key : α → String) (new : α) : List α → List α
  | [] => [new]
  | first :: rest =>
    if key new < key first then new :: first :: rest
    else if key first < key new then first :: putBy key new rest
    else new :: rest

theorem eq_or_mem_of_mem_putBy {α : Type} {key : α → String} {new member : α} {members : List α}
    (h : member ∈ putBy key new members) : member = new ∨ member ∈ members := by
  induction members with
  | nil => exact .inl (List.mem_singleton.1 h)
  | cons first rest ih =>
    unfold putBy at h
    split at h
    · exact List.mem_cons.1 h
    · split at h
      · rcases List.mem_cons.1 h with h | h
        · exact .inr (h ▸ List.mem_cons_self)
        · exact (ih h).imp_right (List.mem_cons_of_mem first)
      · exact (List.mem_cons.1 h).imp_right (List.mem_cons_of_mem first)

/-- A sorted list stays sorted when a member is put into it. -/
theorem IncreasingBy.putBy {α : Type} {key : α → String} {new : α} {members : List α}
    (h : IncreasingBy key members) : IncreasingBy key (Text.putBy key new members) := by
  induction members with
  | nil => exact List.pairwise_singleton _ _
  | cons first rest ih =>
    obtain ⟨below, sorted⟩ := List.pairwise_cons.1 h
    unfold Text.putBy
    split
    · next less =>
      refine List.pairwise_cons.2 ⟨fun member mem => ?_, h⟩
      rcases List.mem_cons.1 mem with same | mem
      · exact same ▸ less
      · exact String.lt_trans less (below member mem)
    · next notLess =>
      split
      · next greater =>
        refine List.pairwise_cons.2 ⟨fun member mem => ?_, ih sorted⟩
        rcases eq_or_mem_of_mem_putBy mem with same | mem
        · exact same ▸ greater
        · exact below member mem
      · next notGreater =>
        have same : key first = key new :=
          String.le_antisymm (String.not_lt.1 notLess) (String.not_lt.1 notGreater)
        exact List.pairwise_cons.2 ⟨fun member mem => same ▸ below member mem, sorted⟩

/-- The distinct texts of a list, in increasing order. -/
def sortedSet (texts : List String) : List String :=
  texts.foldl (fun set text => putBy id text set) []

/-- A sorted map with `value` at `key`, in place of any value it had there. -/
def putSorted {α : Type} (key : String) (value : α) (map : List (String × α)) :
    List (String × α) :=
  putBy Prod.fst (key, value) map

/-- The members of a list in increasing order of `key`; members of equal key keep their order. -/
def sortedBy {α : Type} (key : α → String) (members : List α) : List α :=
  members.mergeSort fun a b => decide (key a ≤ key b)

/-- The value at a key in a list of pairs: the first one given. -/
def valueAt? {α : Type} (key : String) : List (String × α) → Option α
  | [] => none
  | (first, value) :: rest => if first = key then some value else valueAt? key rest

theorem mem_of_valueAt?_eq_some {α : Type} {key : String} {pairs : List (String × α)} {value : α}
    (h : valueAt? key pairs = some value) : (key, value) ∈ pairs := by
  induction pairs with
  | nil => simp [valueAt?] at h
  | cons pair rest ih =>
    obtain ⟨first, firstValue⟩ := pair
    unfold valueAt? at h
    split at h
    · next hsame =>
      rw [← hsame, ← Option.some.inj h]
      exact List.mem_cons_self
    · exact List.mem_cons_of_mem _ (ih h)

end QualifierDiscovery.Text
