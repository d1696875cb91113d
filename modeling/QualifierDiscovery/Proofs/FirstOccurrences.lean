import Mathlib.Data.List.Induction
import Mathlib.Data.List.Nodup

/-!
# `Proofs.FirstOccurrences` — lists without their repetitions

A search path and a set of qualifiers take every member once, where it first comes. A member at the end of
a list is dropped (`eraseDups_concat_of_mem`) or new (`eraseDups_concat_of_notMem`), and this is all that an
induction from the end of the list needs. A search that takes the first hit does not see the difference (`findSome?_eraseDups`).
-/

namespace QualifierDiscovery

variable {α β : Type} [BEq α] [LawfulBEq α] {members : List α} {last : α}

/-- What comes last is kept only if it has not come before. -/
theorem eraseDups_concat_of_mem (h : last ∈ members) :
    (members ++ [last]).eraseDups = members.eraseDups := by
  have hremoved : [last].removeAll members = [] := by
    simp [List.removeAll, h]
  rw [List.eraseDups_append, hremoved, List.eraseDups_nil, List.append_nil]

theorem eraseDups_concat_of_notMem (h : last ∉ members) :
    (members ++ [last]).eraseDups = members.eraseDups ++ [last] := by
  have hkept : [last].removeAll members = [last] := by
    simp [List.removeAll, h]
  rw [List.eraseDups_append, hkept, List.eraseDups_cons, List.filter_nil, List.eraseDups_nil]

theorem eraseDups_of_nodup (h : members.Nodup) : members.eraseDups = members := by
  induction members using List.reverseRecOn with
  | nil => rfl
  | append_singleton members last ih =>
    obtain ⟨hmembers, -, hdisjoint⟩ := List.nodup_append.mp h
    have hlast : last ∉ members := fun hmem => hdisjoint last hmem last List.mem_cons_self rfl
    rw [eraseDups_concat_of_notMem hlast, ih hmembers]

/-- What is put behind a list leaves its members where they are. -/
theorem eraseDups_isPrefix {more : List α} (h : members <+: more) :
    members.eraseDups <+: more.eraseDups := by
  obtain ⟨rest, rfl⟩ := h
  rw [List.eraseDups_append]
  exact List.prefix_append _ _

/-- **Repetitions do not matter to the first hit.** A member that comes again has been tried before. -/
theorem findSome?_eraseDups (f : α → Option β) (members : List α) :
    members.eraseDups.findSome? f = members.findSome? f := by
  induction members using List.reverseRecOn with
  | nil => rfl
  | append_singleton members last ih =>
    rw [List.findSome?_append, List.findSome?_singleton]
    by_cases hlast : last ∈ members
    · rw [eraseDups_concat_of_mem hlast, ih]
      cases hfirst : members.findSome? f with
      | some found => rfl
      | none => exact (List.findSome?_eq_none_iff.mp hfirst last hlast).symm
    · rw [eraseDups_concat_of_notMem hlast, List.findSome?_append, List.findSome?_singleton, ih]

end QualifierDiscovery
