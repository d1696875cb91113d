import QualifierDiscovery.Proofs.RegistryHistory
import QualifierDiscovery.Proofs.Synthesis

/-!
# `Proofs.Mirrors` — what the default synthesis makes

The default synthesizer goes through the elements that the environment declares for a type and adds the
default of each to a mirror. A value for an element that is there already would replace the earlier one;
but a registry holds no descriptor that declares an element twice, so the mirror comes out with one value
for each element.

## Contents
- **Complete mirrors.** `AnnotationMirror.Completes` — a mirror has just the defaults of these elements;
  such a mirror is determined by them (`Completes.eq`).
- **The loop.** `Completes.withValue` for one element and `Completes.fillDefaults` for all of them, by
  induction over the elements that are left.
- **Synthesis.** `synthesizeFrom_eq_error_iff` and `Registry.synthesizeFrom_eq_ok_iff`, and with both
  `Registry.synthesis_exact`.
-/

namespace QualifierDiscovery

/-! ## Complete mirrors -/

namespace AnnotationMirror

variable {mirror other filled : AnnotationMirror} {elements rest : List ElementDescriptor}
  {e : ElementDescriptor} {value : Json.Value}

/-- The mirror has one value for each of the elements, which is its default, and no other value. The
    values are sorted by element. -/
structure Completes (mirror : AnnotationMirror) (elements : List ElementDescriptor) : Prop where
  sorted : Text.IncreasingBy Prod.fst mirror.values
  elements_perm : mirror.elements.Perm (elements.map ElementDescriptor.name)
  value?_eq : ∀ e ∈ elements, mirror.value? e.name = e.default?

namespace Completes

theorem ofType (annotationType : String) : (AnnotationMirror.ofType annotationType).Completes [] where
  sorted := .nil
  elements_perm := .nil
  value?_eq := fun _ he => absurd he List.not_mem_nil

/-- There are as many values as elements. -/
theorem length_values (h : mirror.Completes elements) : mirror.values.length = elements.length := by
  have hlength := h.elements_perm.length_eq
  rwa [AnnotationMirror.elements, List.length_map, List.length_map] at hlength

theorem value?_eq_of_completes (h : mirror.Completes elements) (hother : other.Completes elements)
    (name : String) : mirror.value? name = other.value? name := by
  by_cases hname : name ∈ elements.map ElementDescriptor.name
  · obtain ⟨e, he, rfl⟩ := List.mem_map.mp hname
    rw [h.value?_eq e he, hother.value?_eq e he]
  · have habsent : ∀ shown : AnnotationMirror, shown.Completes elements → shown.value? name = none := by
      intro shown hshown
      rw [← Option.not_isSome_iff_eq_none, value?, Text.isSome_valueAt?_iff]
      exact fun hmem => hname (hshown.elements_perm.mem_iff.mp hmem)
    rw [habsent mirror h, habsent other hother]

/-- **A complete mirror is determined by its type and the elements.** -/
theorem eq (h : mirror.Completes elements) (hother : other.Completes elements)
    (htype : mirror.annotationType = other.annotationType) : mirror = other := by
  have hvalues : mirror.values = other.values := by
    apply h.sorted.eq_of_mem_iff hother.sorted
    rintro ⟨name, value⟩
    rw [← Text.valueAt?_eq_some_iff_of_nodup h.sorted.nodup_keys,
      ← Text.valueAt?_eq_some_iff_of_nodup hother.sorted.nodup_keys]
    exact Eq.congr_left (h.value?_eq_of_completes hother name)
  cases mirror
  cases other
  cases htype
  cases hvalues
  rfl

/-! ## The loop -/

/-- The default of one more element completes the mirror for it too. -/
theorem withValue (h : mirror.Completes elements) (hnew : e.name ∉ elements.map ElementDescriptor.name)
    (hdefault : e.default? = some value) :
    (mirror.withValue e.name value).Completes (elements ++ [e]) where
  sorted := h.sorted.putBy
  elements_perm := by
    have habsent : e.name ∉ mirror.values.map Prod.fst :=
      fun hmem => hnew (h.elements_perm.mem_iff.mp hmem)
    have hput : (Text.putSorted e.name value mirror.values).Perm ((e.name, value) :: mirror.values) :=
      Text.putBy_perm_of_notMem habsent
    have hkeys : (mirror.withValue e.name value).elements.Perm (e.name :: mirror.elements) :=
      hput.map Prod.fst
    rw [List.map_append, List.map_singleton]
    exact (hkeys.trans (h.elements_perm.cons e.name)).trans (List.perm_append_singleton ..).symm
  value?_eq := by
    intro declared hdeclared
    rw [AnnotationMirror.withValue, value?, Text.valueAt?_putSorted]
    rcases List.mem_append.mp hdeclared with hold | hlast
    · have hne : e.name ≠ declared.name :=
        fun hsame => hnew (hsame ▸ List.mem_map_of_mem hold)
      rw [if_neg hne]
      exact h.value?_eq declared hold
    · rw [List.mem_singleton.mp hlast, if_pos rfl, hdefault]

/-- **Filling in the rest of the defaults completes the mirror for all the elements.** By induction over
    the elements that are left; those that are done move to the front. -/
theorem fillDefaults (h : mirror.Completes elements)
    (hdistinct : ((elements ++ rest).map ElementDescriptor.name).Nodup)
    (hfilled : QualifierDiscovery.fillDefaults mirror rest = .ok filled) :
    filled.Completes (elements ++ rest) := by
  induction rest generalizing mirror elements with
  | nil =>
    rw [List.append_nil]
    exact Except.ok.inj hfilled ▸ h
  | cons e rest ih =>
    rw [QualifierDiscovery.fillDefaults] at hfilled
    cases hdefault : e.default? with
    | none =>
      rw [hdefault] at hfilled
      exact absurd hfilled (by simp)
    | some value =>
      rw [hdefault] at hfilled
      have hnew : e.name ∉ elements.map ElementDescriptor.name := by
        intro hmem
        rw [List.map_append] at hdistinct
        exact (List.nodup_append.mp hdistinct).2.2 _ hmem _ List.mem_cons_self rfl
      rw [List.append_cons] at hdistinct ⊢
      exact ih (h.withValue hnew hdefault) hdistinct hfilled

end Completes

end AnnotationMirror

/-! ## Synthesis -/

section Synthesis

variable {elements : List ElementDescriptor} {mirror filled : AnnotationMirror}

/-- Filling in defaults succeeds exactly if all elements have one. -/
theorem exists_fillDefaults_eq_ok_iff :
    (∃ filled, fillDefaults mirror elements = .ok filled) ↔ ∀ e ∈ elements, e.default? ≠ none := by
  induction elements generalizing mirror with
  | nil => simp [fillDefaults]
  | cons e rest ih =>
    unfold fillDefaults
    rw [List.forall_mem_cons]
    cases hdefault : e.default? with
    | none => simp
    | some value => simpa using ih

theorem annotationType_of_fillDefaults (h : fillDefaults mirror elements = .ok filled) :
    filled.annotationType = mirror.annotationType := by
  induction elements generalizing mirror with
  | nil => rw [← Except.ok.inj h]
  | cons e rest ih =>
    rw [fillDefaults] at h
    cases hdefault : e.default? with
    | none =>
      rw [hdefault] at h
      exact absurd h (by simp)
    | some value =>
      rw [hdefault] at h
      have hrest := ih h
      exact hrest

end Synthesis

namespace Registry

variable {environment : Registry} {d : ClassDescriptor} {mirror : AnnotationMirror}

/-- The elements that a registry has for a type have different names. -/
theorem nodup_elements_of_resolve {name : String} {declared : ClassDescriptor}
    (h : environment.resolve name = some declared) :
    (declared.elements.map ElementDescriptor.name).Nodup :=
  (ClassDescriptor.fault?_eq_none_iff.mp (environment.faultless _ (mem_of_resolve h))).distinct

/-- A mirror is made exactly if the environment has an annotation type of the name and all of its elements
    have a default. -/
theorem exists_synthesizeFrom_eq_ok_iff :
    (∃ mirror, synthesizeFrom environment.resolve d = .ok mirror) ↔
      ∃ declared, environment.resolve d.name = some declared ∧ declared.kind = .annotationType ∧
        ∀ e ∈ declared.elements, e.default? ≠ none := by
  cases hresolve : environment.resolve d.name with
  | none => simp [synthesizeFrom_of_unknown hresolve]
  | some declared =>
    by_cases hkind : declared.kind = .annotationType
    · rw [synthesizeFrom_of_annotationType environment.resolve_keyed hresolve hkind,
        exists_fillDefaults_eq_ok_iff]
      simp [hkind]
    · simp [synthesizeFrom_of_otherKind environment.resolve_keyed hresolve hkind, hkind]

/-- **The mirror that is made** is the complete one. The loop's mirror is complete, and there is no other
    of the same type. -/
theorem synthesizeFrom_eq_ok_iff :
    synthesizeFrom environment.resolve d = .ok mirror ↔
      ∃ declared, environment.resolve d.name = some declared ∧ declared.kind = .annotationType ∧
        (∀ e ∈ declared.elements, e.default? ≠ none) ∧
        mirror.annotationType = d.name ∧ mirror.Completes declared.elements := by
  have hmade : ∀ declared made, environment.resolve d.name = some declared →
      declared.kind = .annotationType → synthesizeFrom environment.resolve d = .ok made →
      made.annotationType = d.name ∧ made.Completes declared.elements := by
    intro declared made hresolve hkind hok
    rw [synthesizeFrom_of_annotationType environment.resolve_keyed hresolve hkind] at hok
    have hempty := AnnotationMirror.Completes.ofType d.name
    exact ⟨annotationType_of_fillDefaults hok,
      hempty.fillDefaults (nodup_elements_of_resolve hresolve) hok⟩
  constructor
  · intro hok
    obtain ⟨declared, hresolve, hkind, hdefaults⟩ := exists_synthesizeFrom_eq_ok_iff.mp ⟨mirror, hok⟩
    exact ⟨declared, hresolve, hkind, hdefaults, hmade declared mirror hresolve hkind hok⟩
  · rintro ⟨declared, hresolve, hkind, hdefaults, htype, hcompletes⟩
    obtain ⟨made, hok⟩ := exists_synthesizeFrom_eq_ok_iff.mpr ⟨declared, hresolve, hkind, hdefaults⟩
    obtain ⟨hmadeType, hmadeCompletes⟩ := hmade declared made hresolve hkind hok
    rw [hok, hmadeCompletes.eq hcompletes (hmadeType.trans htype.symm)]

/-- **Why no mirror is made.** -/
theorem synthesizeFrom_eq_error_iff {cause : SynthesisError} :
    synthesizeFrom environment.resolve d = .error cause ↔
      (environment.resolve d.name = none ∧ cause = .unknownType d.name) ∨
      (∃ declared, environment.resolve d.name = some declared ∧ declared.kind ≠ .annotationType ∧
        cause = .notAnnotationType d.name) ∨
      ∃ declared e, environment.resolve d.name = some declared ∧ declared.kind = .annotationType ∧
        FirstRequired declared.elements e ∧ cause = .missingValue d.name e.name := by
  cases hresolve : environment.resolve d.name with
  | none =>
    rw [synthesizeFrom_of_unknown hresolve, Except.error.injEq, eq_comm]
    simp
  | some declared =>
    by_cases hkind : declared.kind = .annotationType
    · rw [synthesizeFrom_of_annotationType environment.resolve_keyed hresolve hkind,
        fillDefaults_eq_error_iff]
      simp [hkind, AnnotationMirror.ofType]
    · rw [synthesizeFrom_of_otherKind environment.resolve_keyed hresolve hkind, Except.error.injEq,
        eq_comm]
      simp [hkind]

/-- **Default synthesis is exact.** Whatever has been registered in the environment, and whatever the
    descriptor says besides its name:

    - there is a mirror exactly if the environment resolves the name to an annotation type all of whose
      elements have a default;
    - the mirror is the one of that name that has a value for each element the environment declares, its
      default there, and no other value;
    - otherwise the failure is that the name is unknown, that it is the name of something else than an
      annotation type, or that the first element without a default, in the order of declaration, has no
      value. -/
theorem synthesis_exact (environment : Registry) (d : ClassDescriptor) :
    ((∃ mirror, synthesizeFrom environment.resolve d = .ok mirror) ↔
      ∃ declared, environment.resolve d.name = some declared ∧ declared.kind = .annotationType ∧
        ∀ e ∈ declared.elements, e.default? ≠ none) ∧
    (∀ mirror, synthesizeFrom environment.resolve d = .ok mirror ↔
      ∃ declared, environment.resolve d.name = some declared ∧ declared.kind = .annotationType ∧
        (∀ e ∈ declared.elements, e.default? ≠ none) ∧
        mirror.annotationType = d.name ∧ mirror.values.length = declared.elements.length ∧
        mirror.Completes declared.elements) ∧
    (∀ cause, synthesizeFrom environment.resolve d = .error cause ↔
      (environment.resolve d.name = none ∧ cause = .unknownType d.name) ∨
      (∃ declared, environment.resolve d.name = some declared ∧ declared.kind ≠ .annotationType ∧
        cause = .notAnnotationType d.name) ∨
      ∃ declared e, environment.resolve d.name = some declared ∧ declared.kind = .annotationType ∧
        FirstRequired declared.elements e ∧ cause = .missingValue d.name e.name) := by
  refine ⟨exists_synthesizeFrom_eq_ok_iff, fun mirror => ?_, fun cause => synthesizeFrom_eq_error_iff⟩
  rw [synthesizeFrom_eq_ok_iff]
  refine exists_congr fun declared => ?_
  constructor
  · rintro ⟨hresolve, hkind, hdefaults, htype, hcompletes⟩
    exact ⟨hresolve, hkind, hdefaults, htype, hcompletes.length_values, hcompletes⟩
  · rintro ⟨hresolve, hkind, hdefaults, htype, -, hcompletes⟩
    exact ⟨hresolve, hkind, hdefaults, htype, hcompletes⟩

end Registry

end QualifierDiscovery
