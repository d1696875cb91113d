import Mathlib.Data.List.Sort
import QualifierDiscovery.Text.Order
import QualifierDiscovery.Text.Utf8

/-!
# `Proofs.Text.Order` — sorted sets of texts and their order

A list that increases by a key is determined by its members (`IncreasingBy.eq_of_mem_iff`). So is a sorted
set (`sortedSet_eq_of_mem_iff`), and a sorted list if no two of its members have the same key
(`sortedBy_eq_of_perm`). Where no key occurs twice, looking a key up tells what is at it
(`valueAt?_eq_some_iff_of_nodup`). A common start keeps the order (`append_lt_append_of_lt`). The order of
texts is that of their bytes: UTF-8 is written so that comparing code points and comparing encoded bytes
give the same answer (`lt_iff_utf8Bytes_lt`).
-/

namespace QualifierDiscovery.Text

/-! ## Sorted sets -/

theorem mem_putBy_id {new text : String} {texts : List String} :
    text ∈ putBy id new texts ↔ text = new ∨ text ∈ texts := by
  refine ⟨eq_or_mem_of_mem_putBy, fun h => ?_⟩
  induction texts with
  | nil =>
    rcases h with rfl | h
    · exact List.mem_singleton.mpr rfl
    · exact absurd h List.not_mem_nil
  | cons first rest ih =>
    unfold putBy
    split
    · exact List.mem_cons.mpr h
    · split
      · rcases h with rfl | h
        · exact List.mem_cons_of_mem _ (ih (Or.inl rfl))
        · rcases List.mem_cons.mp h with rfl | h
          · exact List.mem_cons_self
          · exact List.mem_cons_of_mem _ (ih (Or.inr h))
      · -- neither text comes first, so `new` stands where the equal `first` stood
        next hle hge =>
        have hsame : first = new := String.le_antisymm (String.not_lt.mp hle) (String.not_lt.mp hge)
        rcases h with rfl | h
        · exact List.mem_cons_self
        · exact hsame ▸ h

/-- Putting a member into a list changes what is found for its own key. -/
theorem find?_putBy {α : Type} {key : α → String} {new : α} {members : List α} {k : String} :
    (putBy key new members).find? (fun member => key member == k) =
      if key new = k then some new else members.find? fun member => key member == k := by
  induction members with
  | nil => by_cases h : key new = k <;> simp [putBy, h]
  | cons first rest ih =>
    unfold putBy
    split
    · by_cases h : key new = k <;> simp [h]
    · next hle =>
      split
      · next hless =>
        by_cases h : key new = k
        · have hne : key first ≠ k := fun hsame => String.lt_irrefl _ (h ▸ hsame ▸ hless)
          simp [ih, h, hne]
        · simp only [List.find?_cons, ih, if_neg h]
      · next hge =>
        have hsame : key first = key new :=
          String.le_antisymm (String.not_lt.mp hle) (String.not_lt.mp hge)
        by_cases h : key new = k <;> simp [hsame, h]

/-- A member of a new key is added to those that are there. -/
theorem putBy_perm_of_notMem {α : Type} {key : α → String} {new : α} {members : List α}
    (h : key new ∉ members.map key) : (putBy key new members).Perm (new :: members) := by
  induction members with
  | nil => exact .refl _
  | cons first rest ih =>
    rw [List.map_cons, List.mem_cons, not_or] at h
    unfold putBy
    split
    · exact .refl _
    · next hle =>
      split
      · exact ((ih h.2).cons first).trans (.swap new first rest)
      · next hge =>
        exact absurd (String.le_antisymm (String.not_lt.mp hge) (String.not_lt.mp hle)) h.1

theorem mem_foldl_putBy_id {text : String} (texts set : List String) :
    text ∈ texts.foldl (fun set text => putBy id text set) set ↔ text ∈ texts ∨ text ∈ set := by
  induction texts generalizing set with
  | nil => simp
  | cons first rest ih =>
    rw [List.foldl_cons, ih, mem_putBy_id, List.mem_cons]
    constructor
    · rintro (h | h | h)
      · exact Or.inl (Or.inr h)
      · exact Or.inl (Or.inl h)
      · exact Or.inr h
    · rintro ((h | h) | h)
      · exact Or.inr (Or.inl h)
      · exact Or.inl h
      · exact Or.inr (Or.inr h)

/-- A sorted set has the texts of the list it is made of. -/
theorem mem_sortedSet {text : String} {texts : List String} :
    text ∈ sortedSet texts ↔ text ∈ texts := by
  unfold sortedSet
  rw [mem_foldl_putBy_id]
  simp

theorem increasing_foldl_putBy {texts set : List String} (hset : IncreasingBy id set) :
    IncreasingBy id (texts.foldl (fun set text => putBy id text set) set) := by
  induction texts generalizing set with
  | nil => exact hset
  | cons first rest ih => exact ih hset.putBy

theorem increasing_sortedSet (texts : List String) :
    (sortedSet texts).Pairwise fun a b => a < b :=
  increasing_foldl_putBy List.Pairwise.nil

/-- No key occurs twice in a list that increases by it. -/
theorem IncreasingBy.nodup_keys {α : Type} {key : α → String} {members : List α}
    (h : IncreasingBy key members) : (members.map key).Nodup := by
  rw [List.Nodup, List.pairwise_map]
  apply h.imp
  intro a b hless hsame
  rw [hsame] at hless
  exact String.lt_irrefl _ hless

/-- **A list that increases by a key is determined by its members.** -/
theorem IncreasingBy.eq_of_mem_iff {α : Type} {key : α → String} {members others : List α}
    (h : IncreasingBy key members) (hothers : IncreasingBy key others)
    (hmem : ∀ member, member ∈ members ↔ member ∈ others) : members = others := by
  have : Std.Irrefl fun a b : α => key a < key b := ⟨fun _ => String.lt_irrefl _⟩
  have : Std.Antisymm fun a b : α => key a < key b :=
    ⟨fun _ _ hab hba => absurd hba (String.lt_asymm hab)⟩
  exact List.Pairwise.eq_of_mem_iff h hothers hmem

/-- **A sorted set is determined by its members.** -/
theorem sortedSet_eq_of_mem_iff {texts others : List String}
    (h : ∀ text, text ∈ texts ↔ text ∈ others) : sortedSet texts = sortedSet others := by
  have hsorted : IncreasingBy id (sortedSet texts) := increasing_sortedSet texts
  apply hsorted.eq_of_mem_iff (increasing_sortedSet others)
  intro text
  rw [mem_sortedSet, mem_sortedSet, h]

/-- The keys of a sorted list do not decrease. -/
theorem pairwise_sortedBy {α : Type} (key : α → String) (members : List α) :
    (sortedBy key members).Pairwise fun a b => key a ≤ key b := by
  have hsorted : (sortedBy key members).Pairwise fun a b => decide (key a ≤ key b) = true := by
    apply List.pairwise_mergeSort
    · intro a b c hab hbc
      exact decide_eq_true (String.le_trans (of_decide_eq_true hab) (of_decide_eq_true hbc))
    · intro a b
      simpa using String.le_total (key a) (key b)
  exact hsorted.imp of_decide_eq_true

theorem sortedBy_eq_nil_iff {α : Type} {key : α → String} {members : List α} :
    sortedBy key members = [] ↔ members = [] := by
  unfold sortedBy
  rw [← List.length_eq_zero_iff, List.length_mergeSort, List.length_eq_zero_iff]

/-- If no two members have the same key, the keys of the sorted list increase. -/
theorem increasing_sortedBy {α : Type} {key : α → String} {members : List α}
    (h : (members.map key).Nodup) : IncreasingBy key (sortedBy key members) := by
  have hperm : (sortedBy key members).Perm members := List.mergeSort_perm members _
  have hdistinct : (sortedBy key members).Pairwise fun a b => key a ≠ key b :=
    List.pairwise_map.mp ((hperm.map key).nodup_iff.mpr h)
  refine ((pairwise_sortedBy key members).and hdistinct).imp fun {a b} hab => ?_
  exact Classical.not_not.mp fun hnot => hab.2 (String.le_antisymm hab.1 (String.not_lt.mp hnot))

theorem sortedBy_eq_self {α : Type} {key : α → String} {members : List α}
    (h : IncreasingBy key members) : sortedBy key members = members :=
  List.mergeSort_of_pairwise (h.imp fun hlt => decide_eq_true (String.not_lt.mp (String.lt_asymm hlt)))

/-- **Sorting by a key forgets the order before it**, if no two members have the same key. -/
theorem sortedBy_eq_of_perm {α : Type} {key : α → String} {members others : List α}
    (hperm : members.Perm others)
    (hkey : ∀ a ∈ members, ∀ b ∈ members, key a = key b → a = b) :
    sortedBy key members = sortedBy key others := by
  have hsortedPerm : (sortedBy key members).Perm (sortedBy key others) :=
    (List.mergeSort_perm members _).trans (hperm.trans (List.mergeSort_perm others _).symm)
  refine hsortedPerm.eq_of_pairwise ?_ (pairwise_sortedBy key members) (pairwise_sortedBy key others)
  intro a b ha hb hab hba
  apply hkey a (List.mem_mergeSort.mp ha) b (hperm.mem_iff.mpr (List.mem_mergeSort.mp hb))
  exact String.le_antisymm hab hba

/-- A common start does not bear on the order. -/
theorem append_lt_append_of_lt (start : String) {a b : String} (h : a < b) :
    start ++ a < start ++ b := by
  rw [String.lt_iff, String.toList_append, String.toList_append]
  exact List.append_left_lt (String.lt_iff.mp h)

/-! ## Looking up -/

section LookingUp

variable {α : Type} {key : String} {value : α} {pairs : List (String × α)}

theorem valueAt?_eq_find? (key : String) (pairs : List (String × α)) :
    valueAt? key pairs = (pairs.find? fun pair => pair.1 == key).map Prod.snd := by
  induction pairs with
  | nil => rfl
  | cons pair rest ih =>
    unfold valueAt?
    by_cases hkey : pair.1 = key <;> simp [hkey, ih]

/-- A key has a value exactly if it occurs. -/
theorem isSome_valueAt?_iff : (valueAt? key pairs).isSome = true ↔ key ∈ pairs.map Prod.fst := by
  rw [valueAt?_eq_find?, Option.isSome_map, List.find?_isSome, List.mem_map]
  simp only [beq_iff_eq]

/-- **Looking up and listing agree** where no key occurs twice, since the first pair of a key is then the
    only one. -/
theorem valueAt?_eq_some_iff_of_nodup (h : (pairs.map Prod.fst).Nodup) :
    valueAt? key pairs = some value ↔ (key, value) ∈ pairs := by
  refine ⟨mem_of_valueAt?_eq_some, fun hmem => ?_⟩
  have hoccurs : key ∈ pairs.map Prod.fst := List.mem_map.mpr ⟨_, hmem, rfl⟩
  obtain ⟨found, hfound⟩ := Option.isSome_iff_exists.mp (isSome_valueAt?_iff.mpr hoccurs)
  have hsame : (key, found) = (key, value) :=
    List.inj_on_of_nodup_map h (mem_of_valueAt?_eq_some hfound) hmem rfl
  rw [hfound, (Prod.mk.inj hsame).2]

/-- A value put into a map changes what is found for its own key. -/
theorem valueAt?_putSorted (other : String) :
    valueAt? other (putSorted key value pairs) =
      if key = other then some value else valueAt? other pairs := by
  rw [valueAt?_eq_find?, putSorted, find?_putBy, valueAt?_eq_find?]
  split <;> rfl

end LookingUp

/-! ## The order of bytes -/

theorem toNat_byte {n : Nat} (h : n < 256) : (UInt8.ofNat n).toNat = n := by
  rw [UInt8.toNat_ofNat']
  exact Nat.mod_eq_of_lt h

/-- **A smaller character has smaller bytes**, whatever follows. The number of bytes grows with the
    code point and shows in the first byte; among characters of one length the bytes are the code
    point's digits to base 64, the highest first. -/
theorem utf8EncodeChar_append_lt {c d : Char} (h : c < d) (xs ys : List UInt8) :
    String.utf8EncodeChar c ++ xs < String.utf8EncodeChar d ++ ys := by
  have hcd : c.val.toNat < d.val.toNat := UInt32.lt_iff_toNat_lt.mp h
  have hd : d.val.toNat < 0x110000 := by
    rcases d.valid with hsmall | hlarge
    · exact Nat.lt_trans hsmall (by decide)
    · exact hlarge.2
  unfold String.utf8EncodeChar
  generalize c.val.toNat = v at *
  generalize d.val.toNat = w at *
  have hv2 : v / 4096 = v / 64 / 64 := by omega
  have hw2 : w / 4096 = w / 64 / 64 := by omega
  have hv3 : v / 262144 = v / 64 / 64 / 64 := by omega
  have hw3 : w / 262144 = w / 64 / 64 / 64 := by omega
  have hvtop : v / 64 / 64 / 64 % 8 = v / 64 / 64 / 64 := by omega
  have hwtop : w / 64 / 64 / 64 % 8 = w / 64 / 64 / 64 := by omega
  simp only [hv2, hw2, hv3, hw3, hvtop, hwtop]
  split_ifs <;>
    simp (disch := omega) only [List.cons_append, List.nil_append, List.cons_lt_cons_iff,
      UInt8.lt_iff_toNat_lt, ← UInt8.toNat_inj, toNat_byte] <;>
    omega

theorem utf8Bytes_lt_of_lt {a b : String} (h : a < b) : utf8Bytes a < utf8Bytes b := by
  unfold utf8Bytes
  replace h := String.lt_iff.mp h
  generalize a.toList = as at h ⊢
  generalize b.toList = bs at h ⊢
  induction as generalizing bs with
  | nil =>
    cases bs with
    | nil => exact absurd h (List.lt_irrefl [])
    | cons d ds =>
      obtain ⟨byte, rest, hbytes⟩ := List.exists_cons_of_ne_nil (String.utf8EncodeChar_ne_nil (c := d))
      rw [List.flatMap_cons, hbytes]
      exact List.Lex.nil
  | cons c cs ih =>
    cases bs with
    | nil => exact absurd h (List.not_lt_nil _)
    | cons d ds =>
      rw [List.flatMap_cons, List.flatMap_cons]
      rcases List.cons_lt_cons_iff.mp h with hlt | ⟨rfl, hlt⟩
      · exact utf8EncodeChar_append_lt hlt _ _
      · exact List.append_left_lt (ih ds hlt)

/-- **The order of texts is the order of their bytes.** -/
theorem lt_iff_utf8Bytes_lt {a b : String} : a < b ↔ utf8Bytes a < utf8Bytes b := by
  refine ⟨utf8Bytes_lt_of_lt, fun h => ?_⟩
  apply Classical.byContradiction
  intro hnot
  by_cases hba : b < a
  · exact List.lt_asymm h (utf8Bytes_lt_of_lt hba)
  · have hsame : a = b := String.le_antisymm (String.not_lt.mp hba) (String.not_lt.mp hnot)
    rw [hsame] at h
    exact List.lt_irrefl _ h

end QualifierDiscovery.Text
