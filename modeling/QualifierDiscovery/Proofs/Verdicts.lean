import Mathlib.Data.Option.Basic
import Mathlib.Logic.ExistsUnique
import QualifierDiscovery.Registry
import QualifierDiscovery.Validator

/-!
# `Proofs.Verdicts` — how the steps of a validation decide

The steps of a validation come in a fixed order, and the first that a candidate does not pass is the reason
against it. A candidate either passes them all, where a name accepted before counts for the last two, or
there is just one such reason (`Validator.exists_accepts_or_refuses`, `Refuses.unique`). What
`validate` answers is read off that: the descriptor, or the refusal that the policy makes of the reason.

## Contents
- **Forms.** `TypeUseOnly` and `Validator.WellShaped` — what is asked of a candidate before its synthesis.
- **Decisions.** `Validator.Accepts`, `Validator.Refuses` and `FailurePolicy.refusal`, with
  `validate_of_accepts` and `validate_of_refuses` for the two kinds of candidates.
- **Answers.** What each answer of `validate` says about the candidate.
- **Target lists.** Of a target list only its members count: `SameButTargets.validate` compares the answers
  of two validators whose descriptors differ in the order of targets and in how often each is listed. No
  predicate of the program reads these lists (`Support.BlindToTargets`).
- **Registries.** `Validator.decision_law` — all of it for a validator over two registries;
  `permuting_changes_verdict` under a predicate that reads the order of targets.
-/

namespace QualifierDiscovery

/-! ## Forms -/

/-- The contexts of a type qualifier: uses of types, and besides them type parameters only. -/
def TypeUseOnly (targets : List ElementType) : Prop :=
  .typeUse ∈ targets ∧ ∀ target ∈ targets, target = .typeUse ∨ target = .typeParameter

theorem targetsTypeUse_iff {targets : List ElementType} :
    targetsTypeUse targets = true ↔ TypeUseOnly targets := by
  unfold targetsTypeUse TypeUseOnly
  simp only [Bool.and_eq_true, List.contains_iff_mem, List.all_eq_true, Bool.or_eq_true, beq_iff_eq]

namespace Validator

variable {v : Validator} {name : String} {d : ClassDescriptor}

/-- The candidate is known and has the form of a type qualifier. -/
structure WellShaped (v : Validator) (name : String) (d : ClassDescriptor) : Prop where
  resolved : v.resolve name = some d
  kind_eq : d.kind = .annotationType
  typeUse : ∃ targets, d.targets? = some targets ∧ TypeUseOnly targets

theorem checkShape_eq_ok_iff : v.checkShape name = .ok d ↔ v.WellShaped name d := by
  unfold checkShape
  constructor
  · intro h
    cases hresolve : v.resolve name with
    | none => simp [hresolve] at h
    | some found =>
      rw [hresolve] at h
      by_cases hkind : found.isAnnotationType = true
      · cases htargets : found.targets? with
        | none => simp [hkind, htargets] at h
        | some targets =>
          by_cases htypeUse : targetsTypeUse targets = true
          · simp only [hkind, htargets, htypeUse, if_true, Except.ok.injEq] at h
            subst h
            exact ⟨hresolve, beq_iff_eq.mp hkind, targets, htargets,
              targetsTypeUse_iff.mp htypeUse⟩
          · simp [hkind, htargets, htypeUse] at h
      · simp [hkind] at h
  · rintro ⟨hresolve, hkind, targets, htargets, htypeUse⟩
    have hisType : d.isAnnotationType = true := beq_iff_eq.mpr hkind
    simp only [hresolve, hisType, htargets, targetsTypeUse_iff.mpr htypeUse, if_true]

theorem WellShaped.unique {d' : ClassDescriptor} (h : v.WellShaped name d)
    (h' : v.WellShaped name d') : d = d' :=
  Option.some.inj (h.resolved.symm.trans h'.resolved)

end Validator

/-! ## Decisions -/

/-- What a policy makes of a reason against a candidate: a failed synthesis can be an error, everything
    else is a rejection. -/
def FailurePolicy.refusal (policy : FailurePolicy) (name : String) (reason : Rejection) :
    Except LoadError Verdict :=
  match policy, reason with
  | .abort, .synthesisFailed cause => .error (.synthesis name cause)
  | _, reason => .ok (.rejected reason)

namespace FailurePolicy

variable {policy : FailurePolicy} {name : String} {reason other : Rejection}

theorem refusal_ne_accepted (policy : FailurePolicy) (name : String) (reason : Rejection)
    (d : ClassDescriptor) : policy.refusal name reason ≠ .ok (.accepted d) := by
  cases policy <;> cases reason <;> simp [refusal]

theorem refusal_eq_rejected_iff :
    policy.refusal name reason = .ok (.rejected other) ↔
      reason = other ∧ ¬ (policy = .abort ∧ ∃ cause, other = .synthesisFailed cause) := by
  cases policy <;> cases reason <;> cases other <;> simp [refusal]

theorem refusal_eq_error_iff {failure : LoadError} :
    policy.refusal name reason = .error failure ↔
      policy = .abort ∧ ∃ cause, reason = .synthesisFailed cause ∧ failure = .synthesis name cause := by
  cases policy <;> cases reason <;> simp [refusal, eq_comm]

/-- A refusal tells its reason. -/
theorem refusal_injective (policy : FailurePolicy) (name : String) :
    Function.Injective (policy.refusal name) := by
  intro reason other hsame
  cases hrefusal : policy.refusal name reason with
  | error failure =>
    obtain ⟨-, cause, rfl, rfl⟩ := refusal_eq_error_iff.mp hrefusal
    obtain ⟨-, cause', rfl, hfailure⟩ := refusal_eq_error_iff.mp (hsame.symm.trans hrefusal)
    rw [(LoadError.synthesis.inj hfailure).2]
  | ok verdict =>
    cases verdict with
    | accepted d => exact absurd hrefusal (refusal_ne_accepted policy name reason d)
    | rejected found =>
      rw [(refusal_eq_rejected_iff.mp hrefusal).1,
        (refusal_eq_rejected_iff.mp (hsame.symm.trans hrefusal)).1]

end FailurePolicy

namespace Validator

variable {v : Validator} {accepted : QualifierSet} {name : String} {d : ClassDescriptor}
  {reason : Rejection}

/-- The candidate has the form of a type qualifier, and it was accepted before or can be synthesized and is
    supported. -/
def Accepts (v : Validator) (accepted : QualifierSet) (name : String) (d : ClassDescriptor) : Prop :=
  v.WellShaped name d ∧
    (d.name ∈ accepted.names ∨ ∃ mirror, v.synthesize d = .ok mirror ∧ v.supports d mirror = true)

/-- The first step that the candidate does not pass, as the reason against it: all steps before are
    passed. -/
inductive Refuses (v : Validator) (accepted : QualifierSet) (name : String) : Rejection → Prop
  | notFound (hresolve : v.resolve name = none) : Refuses v accepted name .notFound
  | notAnnotationType {d : ClassDescriptor} (hresolve : v.resolve name = some d)
      (hkind : d.kind ≠ .annotationType) : Refuses v accepted name .notAnnotationType
  | noTarget {d : ClassDescriptor} (hresolve : v.resolve name = some d)
      (hkind : d.kind = .annotationType) (htargets : d.targets? = none) :
      Refuses v accepted name .noTarget
  | notTypeUse {d : ClassDescriptor} {targets : List ElementType} (hresolve : v.resolve name = some d)
      (hkind : d.kind = .annotationType) (htargets : d.targets? = some targets)
      (htypeUse : ¬ TypeUseOnly targets) : Refuses v accepted name (.notTypeUse targets)
  | synthesisFailed {d : ClassDescriptor} {cause : SynthesisError} (hwell : v.WellShaped name d)
      (hnew : d.name ∉ accepted.names) (hsynthesize : v.synthesize d = .error cause) :
      Refuses v accepted name (.synthesisFailed cause)
  | unsupported {d : ClassDescriptor} {mirror : AnnotationMirror} (hwell : v.WellShaped name d)
      (hnew : d.name ∉ accepted.names) (hsynthesize : v.synthesize d = .ok mirror)
      (hsupports : v.supports d mirror = false) : Refuses v accepted name .unsupported

/-- Every candidate passes all steps or fails a first one. -/
theorem exists_accepts_or_refuses (v : Validator) (accepted : QualifierSet) (name : String) :
    (∃ d, v.Accepts accepted name d) ∨ ∃ reason, v.Refuses accepted name reason := by
  cases hresolve : v.resolve name with
  | none => exact Or.inr ⟨_, .notFound hresolve⟩
  | some d =>
    by_cases hkind : d.kind = .annotationType
    · cases htargets : d.targets? with
      | none => exact Or.inr ⟨_, .noTarget hresolve hkind htargets⟩
      | some targets =>
        by_cases htypeUse : TypeUseOnly targets
        · have hwell : v.WellShaped name d := ⟨hresolve, hkind, targets, htargets, htypeUse⟩
          by_cases hold : d.name ∈ accepted.names
          · exact Or.inl ⟨d, hwell, Or.inl hold⟩
          · cases hsynthesize : v.synthesize d with
            | error cause => exact Or.inr ⟨_, .synthesisFailed hwell hold hsynthesize⟩
            | ok mirror =>
              cases hsupports : v.supports d mirror with
              | true => exact Or.inl ⟨d, hwell, Or.inr ⟨mirror, hsynthesize, hsupports⟩⟩
              | false => exact Or.inr ⟨_, .unsupported hwell hold hsynthesize hsupports⟩
        · exact Or.inr ⟨_, .notTypeUse hresolve hkind htargets htypeUse⟩
    · exact Or.inr ⟨_, .notAnnotationType hresolve hkind⟩

theorem validate_of_wellShaped (h : v.WellShaped name d) :
    v.validate accepted name =
      if d.name ∈ accepted.names then .ok (.accepted d) else v.judge name d := by
  simp only [validate, checkShape_eq_ok_iff.mpr h, QualifierSet.contains, List.contains_iff_mem]

/-- A candidate that passes all steps is accepted. -/
theorem validate_of_accepts (h : v.Accepts accepted name d) :
    v.validate accepted name = .ok (.accepted d) := by
  obtain ⟨hwell, hpasses⟩ := h
  rw [validate_of_wellShaped hwell]
  split
  · rfl
  · next hnew =>
    obtain ⟨mirror, hsynthesize, hsupports⟩ := hpasses.resolve_left hnew
    simp only [judge, hsynthesize, hsupports, if_true]

/-- A candidate that fails a step is refused for it. -/
theorem validate_of_refuses (h : v.Refuses accepted name reason) :
    v.validate accepted name = v.policy.refusal name reason := by
  cases h with
  | notFound hresolve => simp [validate, checkShape, hresolve, FailurePolicy.refusal]
  | notAnnotationType hresolve hkind =>
    simp [validate, checkShape, hresolve, ClassDescriptor.isAnnotationType, hkind, FailurePolicy.refusal]
  | noTarget hresolve hkind htargets =>
    simp [validate, checkShape, hresolve, ClassDescriptor.isAnnotationType, hkind, htargets,
      FailurePolicy.refusal]
  | notTypeUse hresolve hkind htargets htypeUse =>
    rw [← targetsTypeUse_iff] at htypeUse
    simp [validate, checkShape, hresolve, ClassDescriptor.isAnnotationType, hkind, htargets, htypeUse,
      FailurePolicy.refusal]
  | synthesisFailed hwell hnew hsynthesize =>
    rw [validate_of_wellShaped hwell, if_neg hnew, judge, hsynthesize]
    cases v.policy <;> rfl
  | unsupported hwell hnew hsynthesize hsupports =>
    rw [validate_of_wellShaped hwell, if_neg hnew]
    simp [judge, hsynthesize, hsupports, FailurePolicy.refusal]

/-- There is one reason at most against a candidate. -/
theorem Refuses.unique {other : Rejection} (h : v.Refuses accepted name reason)
    (hother : v.Refuses accepted name other) : reason = other :=
  v.policy.refusal_injective name ((validate_of_refuses h).symm.trans (validate_of_refuses hother))

/-! ## Answers -/

theorem validate_eq_accepted_iff :
    v.validate accepted name = .ok (.accepted d) ↔ v.Accepts accepted name d := by
  refine ⟨fun h => ?_, validate_of_accepts⟩
  rcases v.exists_accepts_or_refuses accepted name with ⟨found, haccepts⟩ | ⟨reason, hrefuses⟩
  · rw [validate_of_accepts haccepts, Except.ok.injEq, Verdict.accepted.injEq] at h
    exact h ▸ haccepts
  · rw [validate_of_refuses hrefuses] at h
    exact absurd h (v.policy.refusal_ne_accepted name reason d)

/-- Whatever is not accepted is the refusal of a reason. -/
theorem validate_eq_iff_exists_refuses {answer : Except LoadError Verdict}
    (hanswer : ∀ d, answer ≠ .ok (.accepted d)) :
    v.validate accepted name = answer ↔
      ∃ reason, v.Refuses accepted name reason ∧ v.policy.refusal name reason = answer := by
  constructor
  · intro h
    rcases v.exists_accepts_or_refuses accepted name with ⟨d, haccepts⟩ | ⟨reason, hrefuses⟩
    · exact absurd (h.symm.trans (validate_of_accepts haccepts)) (hanswer d)
    · exact ⟨reason, hrefuses, (validate_of_refuses hrefuses).symm.trans h⟩
  · rintro ⟨reason, hrefuses, hrefusal⟩
    exact (validate_of_refuses hrefuses).trans hrefusal

theorem validate_eq_rejected_iff :
    v.validate accepted name = .ok (.rejected reason) ↔
      v.Refuses accepted name reason ∧
        ¬ (v.policy = .abort ∧ ∃ cause, reason = .synthesisFailed cause) := by
  rw [validate_eq_iff_exists_refuses (by simp)]
  simp only [FailurePolicy.refusal_eq_rejected_iff]
  constructor
  · rintro ⟨reason, hrefuses, rfl, hrejected⟩
    exact ⟨hrefuses, hrejected⟩
  · rintro ⟨hrefuses, hrejected⟩
    exact ⟨reason, hrefuses, rfl, hrejected⟩

theorem validate_eq_error_iff {failure : LoadError} :
    v.validate accepted name = .error failure ↔
      v.policy = .abort ∧
        ∃ cause, v.Refuses accepted name (.synthesisFailed cause) ∧ failure = .synthesis name cause := by
  rw [validate_eq_iff_exists_refuses (by simp)]
  simp only [FailurePolicy.refusal_eq_error_iff]
  constructor
  · rintro ⟨reason, hrefuses, hpolicy, cause, rfl, hfailure⟩
    exact ⟨hpolicy, cause, hrefuses, hfailure⟩
  · rintro ⟨hpolicy, cause, hrefuses, hfailure⟩
    exact ⟨_, hrefuses, hpolicy, cause, rfl, hfailure⟩

/-- **There is just one reason against a candidate that is not accepted**, and none against one that is. -/
theorem existsUnique_refuses_iff :
    (∃! reason, v.Refuses accepted name reason) ↔
      ∀ d, v.validate accepted name ≠ .ok (.accepted d) := by
  constructor
  · rintro ⟨reason, hrefuses, -⟩ d
    rw [validate_of_refuses hrefuses]
    exact v.policy.refusal_ne_accepted name reason d
  · intro h
    rcases v.exists_accepts_or_refuses accepted name with ⟨d, haccepts⟩ | ⟨reason, hrefuses⟩
    · exact absurd (validate_of_accepts haccepts) (h d)
    · exact ⟨reason, hrefuses, fun other hother => hother.unique hrefuses⟩

end Validator

/-! ## Target lists -/

/-- Lists with the same members: one comes of the other by permuting it and listing members more often or
    less often. -/
def SameMembers (targets others : List ElementType) : Prop :=
  ∀ target, target ∈ targets ↔ target ∈ others

theorem SameMembers.typeUseOnly_iff {targets others : List ElementType}
    (h : SameMembers targets others) : TypeUseOnly targets ↔ TypeUseOnly others := by
  unfold TypeUseOnly
  simp only [h _]

/-- Descriptors that differ in their target lists only, and in these not by a member. -/
structure ClassDescriptor.SameButTargets (d other : ClassDescriptor) : Prop where
  rest_eq : other = { d with targets? := other.targets? }
  targets : Option.Rel SameMembers d.targets? other.targets?

namespace ClassDescriptor.SameButTargets

variable {d other : ClassDescriptor}

theorem refl (d : ClassDescriptor) : d.SameButTargets d where
  rest_eq := rfl
  targets := by
    cases d.targets? with
    | none => exact .none
    | some targets => exact .some fun _ => Iff.rfl

theorem name_eq (h : d.SameButTargets other) : other.name = d.name := by rw [h.rest_eq]

theorem kind_eq (h : d.SameButTargets other) : other.kind = d.kind := by rw [h.rest_eq]

theorem elements_eq (h : d.SameButTargets other) : other.elements = d.elements := by rw [h.rest_eq]

theorem metaAnnotations_eq (h : d.SameButTargets other) :
    other.metaAnnotations = d.metaAnnotations := by rw [h.rest_eq]

theorem targets?_eq_none (h : d.SameButTargets other) (htargets : d.targets? = none) :
    other.targets? = none := by
  have hlists := h.targets
  rw [htargets] at hlists
  generalize other.targets? = found at hlists ⊢
  cases hlists with
  | none => rfl

theorem exists_targets {targets : List ElementType} (h : d.SameButTargets other)
    (htargets : d.targets? = some targets) :
    ∃ others, other.targets? = some others ∧ SameMembers targets others := by
  have hlists := h.targets
  rw [htargets] at hlists
  generalize other.targets? = found at hlists ⊢
  cases hlists with
  | some hmembers => exact ⟨_, rfl, hmembers⟩

end ClassDescriptor.SameButTargets

/-- Resolvers that know the same names, with descriptors that differ in their target lists only. -/
def Resolver.SameButTargets (resolve other : Resolver) : Prop :=
  ∀ name, Option.Rel ClassDescriptor.SameButTargets (resolve name) (other name)

/-- The same answer, but for the target lists of an accepted descriptor and of a rejection. -/
inductive SameAnswer : Except LoadError Verdict → Except LoadError Verdict → Prop
  | accepted {d other : ClassDescriptor} (h : d.SameButTargets other) :
      SameAnswer (.ok (.accepted d)) (.ok (.accepted other))
  | rejected (reason : Rejection) : SameAnswer (.ok (.rejected reason)) (.ok (.rejected reason))
  | notTypeUse {targets others : List ElementType} (h : SameMembers targets others) :
      SameAnswer (.ok (.rejected (.notTypeUse targets))) (.ok (.rejected (.notTypeUse others)))
  | failed (failure : LoadError) : SameAnswer (.error failure) (.error failure)

theorem SameAnswer.refl (answer : Except LoadError Verdict) : SameAnswer answer answer := by
  cases answer with
  | error failure => exact .failed failure
  | ok verdict =>
    cases verdict with
    | accepted d => exact .accepted (.refl d)
    | rejected reason => exact .rejected reason

/-- The default synthesis reads no target list. -/
theorem synthesizeFrom_of_sameButTargets {environment environment' : Resolver}
    {d d' : ClassDescriptor} (henvironment : environment.SameButTargets environment')
    (h : d.SameButTargets d') : synthesizeFrom environment d = synthesizeFrom environment' d' := by
  have hdeclared := henvironment d.name
  unfold synthesizeFrom
  rw [h.name_eq]
  generalize environment d.name = found at hdeclared ⊢
  generalize environment' d.name = found' at hdeclared ⊢
  cases hdeclared with
  | none => rfl
  | some hsame =>
    simp [ClassDescriptor.isAnnotationType, hsame.name_eq, hsame.kind_eq, hsame.elements_eq]

namespace Validator

variable {v other : Validator} {accepted accepted' : QualifierSet} {name : String} {d : ClassDescriptor}

/-- Validators that differ in the target lists of their descriptors only. -/
structure SameButTargets (v other : Validator) : Prop where
  resolve : v.resolve.SameButTargets other.resolve
  synthesize : ∀ {d d' : ClassDescriptor}, d.SameButTargets d' → v.synthesize d = other.synthesize d'
  supports_eq : other.supports = v.supports
  policy_eq : other.policy = v.policy

/-- The candidate comes as far as the support predicate, and the answer of the predicate is not the same for
    its two descriptors. The predicate is handed the whole descriptor, so it can read the target list. -/
def TellsApart (v other : Validator) (accepted : QualifierSet) (name : String) : Prop :=
  ∃ d d' mirror, v.WellShaped name d ∧ other.WellShaped name d' ∧ d.name ∉ accepted.names ∧
    v.synthesize d = .ok mirror ∧ v.supports d mirror ≠ v.supports d' mirror

namespace SameButTargets

theorem exists_resolve (h : v.SameButTargets other) (hresolve : v.resolve name = some d) :
    ∃ d', other.resolve name = some d' ∧ d.SameButTargets d' := by
  have hname := h.resolve name
  rw [hresolve] at hname
  generalize other.resolve name = found at hname ⊢
  cases hname with
  | some hsame => exact ⟨_, rfl, hsame⟩

theorem exists_wellShaped (h : v.SameButTargets other) (hwell : v.WellShaped name d) :
    ∃ d', other.WellShaped name d' ∧ d.SameButTargets d' := by
  obtain ⟨d', hresolve, hsame⟩ := h.exists_resolve hwell.resolved
  obtain ⟨targets, htargets, htypeUse⟩ := hwell.typeUse
  obtain ⟨others, hothers, hmembers⟩ := hsame.exists_targets htargets
  exact ⟨d', ⟨hresolve, hsame.kind_eq.trans hwell.kind_eq, others, hothers,
    hmembers.typeUseOnly_iff.mp htypeUse⟩, hsame⟩

/-- What one validator accepts the other accepts too, unless the predicate tells the two apart. -/
theorem exists_accepts (h : v.SameButTargets other) (hnames : accepted'.names = accepted.names)
    (hblind : ¬ v.TellsApart other accepted name) (haccepts : v.Accepts accepted name d) :
    ∃ d', other.Accepts accepted' name d' ∧ d.SameButTargets d' := by
  obtain ⟨hwell, hpasses⟩ := haccepts
  obtain ⟨d', hwell', hsame⟩ := h.exists_wellShaped hwell
  refine ⟨d', ⟨hwell', ?_⟩, hsame⟩
  rw [hnames, hsame.name_eq]
  by_cases hold : d.name ∈ accepted.names
  · exact Or.inl hold
  · obtain ⟨mirror, hsynthesize, hsupports⟩ := hpasses.resolve_left hold
    refine Or.inr ⟨mirror, (h.synthesize hsame).symm.trans hsynthesize, ?_⟩
    rw [h.supports_eq, ← hsupports]
    by_contra hne
    exact hblind ⟨d, d', mirror, hwell, hwell', hold, hsynthesize, Ne.symm hne⟩

/-- A reason against a candidate is one against it in the other validator too, unless the predicate tells
    the two apart. One case for each step. -/
theorem exists_refuses {reason : Rejection} (h : v.SameButTargets other)
    (hnames : accepted'.names = accepted.names) (hblind : ¬ v.TellsApart other accepted name)
    (hrefuses : v.Refuses accepted name reason) :
    ∃ reason', other.Refuses accepted' name reason' ∧
      SameAnswer (v.policy.refusal name reason) (v.policy.refusal name reason') := by
  cases hrefuses with
  | notFound hresolve =>
    have hname := h.resolve name
    rw [hresolve] at hname
    generalize hfound : other.resolve name = found at hname
    cases hname with
    | none => exact ⟨_, .notFound hfound, .refl _⟩
  | notAnnotationType hresolve hkind =>
    obtain ⟨d', hresolve', hsame⟩ := h.exists_resolve hresolve
    exact ⟨_, .notAnnotationType hresolve' (hsame.kind_eq ▸ hkind), .refl _⟩
  | noTarget hresolve hkind htargets =>
    obtain ⟨d', hresolve', hsame⟩ := h.exists_resolve hresolve
    have htargets' := hsame.targets?_eq_none htargets
    exact ⟨_, .noTarget hresolve' (hsame.kind_eq.trans hkind) htargets', .refl _⟩
  | notTypeUse hresolve hkind htargets htypeUse =>
    obtain ⟨d', hresolve', hsame⟩ := h.exists_resolve hresolve
    obtain ⟨others, hothers, hmembers⟩ := hsame.exists_targets htargets
    have htypeUse' := (not_congr hmembers.typeUseOnly_iff).mp htypeUse
    refine ⟨_, .notTypeUse hresolve' (hsame.kind_eq.trans hkind) hothers htypeUse', ?_⟩
    -- a list of other contexts is echoed under either policy
    cases v.policy <;> exact .notTypeUse hmembers
  | synthesisFailed hwell hnew hsynthesize =>
    obtain ⟨d', hwell', hsame⟩ := h.exists_wellShaped hwell
    have hnew' : d'.name ∉ accepted'.names := by rwa [hnames, hsame.name_eq]
    exact ⟨_, .synthesisFailed hwell' hnew' ((h.synthesize hsame).symm.trans hsynthesize), .refl _⟩
  | @unsupported d mirror hwell hnew hsynthesize hsupports =>
    obtain ⟨d', hwell', hsame⟩ := h.exists_wellShaped hwell
    have hnew' : d'.name ∉ accepted'.names := by rwa [hnames, hsame.name_eq]
    have hsupports' : other.supports d' mirror = false := by
      rw [h.supports_eq, ← hsupports]
      by_contra hne
      exact hblind ⟨d, d', mirror, hwell, hwell', hnew, hsynthesize, Ne.symm hne⟩
    exact ⟨_, .unsupported hwell' hnew' ((h.synthesize hsame).symm.trans hsynthesize) hsupports', .refl _⟩

/-- Where the predicate tells the descriptors of a candidate apart, one of them is accepted and the other
    is not. -/
theorem not_sameAnswer_of_tellsApart (h : v.SameButTargets other)
    (hnames : accepted'.names = accepted.names) (htells : v.TellsApart other accepted name) :
    ¬ SameAnswer (v.validate accepted name) (other.validate accepted' name) := by
  obtain ⟨d, d', mirror, hwell, hwell', hnew, hsynthesize, hne⟩ := htells
  obtain ⟨found, hfound, hsame⟩ := h.exists_wellShaped hwell
  obtain rfl := hfound.unique hwell'
  have hnew' : found.name ∉ accepted'.names := by rwa [hnames, hsame.name_eq]
  have hsynthesize' := (h.synthesize hsame).symm.trans hsynthesize
  have hother : v.supports found mirror = !v.supports d mirror := Bool.eq_not.mpr (Ne.symm hne)
  rw [validate_of_wellShaped hwell, validate_of_wellShaped hwell', if_neg hnew, if_neg hnew', judge, judge,
    hsynthesize, hsynthesize', h.supports_eq]
  simp only [hother]
  cases v.supports d mirror with
  | true => exact nofun
  | false => exact nofun

/-- **Of a target list only its members count.** Validators that differ in the order of targets, and in how
    often each is listed, give the same answer but for the lists in it; only a predicate that reads the
    lists can make a difference. -/
theorem validate (h : v.SameButTargets other) (hnames : accepted'.names = accepted.names) (name : String) :
    SameAnswer (v.validate accepted name) (other.validate accepted' name) ↔
      ¬ v.TellsApart other accepted name := by
  refine ⟨fun hanswer htells => h.not_sameAnswer_of_tellsApart hnames htells hanswer, fun hblind => ?_⟩
  rcases v.exists_accepts_or_refuses accepted name with ⟨d, haccepts⟩ | ⟨reason, hrefuses⟩
  · obtain ⟨d', haccepts', hsame⟩ := h.exists_accepts hnames hblind haccepts
    rw [validate_of_accepts haccepts, validate_of_accepts haccepts']
    exact .accepted hsame
  · obtain ⟨reason', hrefuses', hanswer⟩ := h.exists_refuses hnames hblind hrefuses
    rw [validate_of_refuses hrefuses, validate_of_refuses hrefuses', h.policy_eq]
    exact hanswer

end SameButTargets

end Validator

/-- The predicate's answers do not depend on target lists beyond their members. -/
def Support.BlindToTargets (supports : Support) : Prop :=
  ∀ d other mirror, d.SameButTargets other → supports d mirror = supports other mirror

namespace Support

theorem blindToTargets_always : always.BlindToTargets := fun _ _ _ _ => rfl

theorem blindToTargets_requiresMeta (name : String) : (requiresMeta name).BlindToTargets := by
  intro d other mirror h
  rw [requiresMeta, requiresMeta, ClassDescriptor.carries, ClassDescriptor.carries, h.metaAnnotations_eq]

theorem blindToTargets_denySimple (names : List String) : (denySimple names).BlindToTargets := by
  intro d other mirror h
  rw [denySimple, denySimple, ClassDescriptor.simpleName, ClassDescriptor.simpleName, h.name_eq]

theorem blindToTargets_mirrorHas (elements : List String) : (mirrorHas elements).BlindToTargets :=
  fun _ _ _ _ => rfl

end Support

/-- A predicate that does not read target lists, as none of those above does, makes no difference. -/
theorem Validator.SameButTargets.validate_of_blind {v other : Validator} {accepted accepted' : QualifierSet}
    (h : v.SameButTargets other) (hnames : accepted'.names = accepted.names)
    (hblind : v.supports.BlindToTargets) (name : String) :
    SameAnswer (v.validate accepted name) (other.validate accepted' name) := by
  refine (h.validate hnames name).mpr ?_
  rintro ⟨d, d', mirror, hwell, hwell', -, -, hne⟩
  obtain ⟨found, hfound, hsame⟩ := h.exists_wellShaped hwell
  rw [hfound.unique hwell'] at hsame
  exact hne (hblind d d' mirror hsame)

/-! ## Registries -/

namespace Validator

/-- The validator that looks candidates up in one registry and synthesizes them over another. -/
def ofRegistries (registry environment : Registry) (supports : Support) (policy : FailurePolicy) :
    Validator where
  resolve := registry.resolve
  synthesize := synthesizeFrom environment.resolve
  supports := supports
  policy := policy

/-- Validators over registries that differ in target lists only. -/
theorem SameButTargets.ofRegistries {registry registry' environment environment' : Registry}
    (hregistry : registry.resolve.SameButTargets registry'.resolve)
    (henvironment : environment.resolve.SameButTargets environment'.resolve) (supports : Support)
    (policy : FailurePolicy) :
    (Validator.ofRegistries registry environment supports policy).SameButTargets
      (Validator.ofRegistries registry' environment' supports policy) where
  resolve := hregistry
  synthesize := synthesizeFrom_of_sameButTargets henvironment
  supports_eq := rfl
  policy_eq := rfl

/-- **The decision law.** Over any registry of candidates and any environment, under any predicate and
    policy and against any set of accepted qualifiers:

    - a candidate is accepted exactly if it resolves to an annotation type whose targets are present,
      contain the uses of types and besides them type parameters only, and either its name was accepted
      before or it can be synthesized and the predicate supports it;
    - every other candidate has just one reason against it, that of the first step it does not pass;
    - this reason is what it is rejected for, except that a failed synthesis is an error where the policy
      is to abort, and nothing else is an error;
    - where the target lists of the descriptors are permuted or repeat their members, the answer is the
      same but for the lists in it. The predicate is handed the whole descriptor, so this is said of what it
      answers: the two answers differ only if it tells the two descriptors apart, which a predicate that
      does not read target lists never does. -/
theorem decision_law (registry environment : Registry) (supports : Support) (policy : FailurePolicy)
    (accepted : QualifierSet) (name : String) :
    (∀ d, (ofRegistries registry environment supports policy).validate accepted name = .ok (.accepted d) ↔
      registry.resolve name = some d ∧ d.kind = .annotationType ∧
        (∃ targets, d.targets? = some targets ∧ TypeUseOnly targets) ∧
        (d.name ∈ accepted.names ∨
          ∃ mirror, synthesizeFrom environment.resolve d = .ok mirror ∧ supports d mirror = true)) ∧
    ((∃! reason, (ofRegistries registry environment supports policy).Refuses accepted name reason) ↔
      ∀ d, (ofRegistries registry environment supports policy).validate accepted name ≠
        .ok (.accepted d)) ∧
    (∀ reason,
      (ofRegistries registry environment supports policy).validate accepted name =
          .ok (.rejected reason) ↔
        (ofRegistries registry environment supports policy).Refuses accepted name reason ∧
          ¬ (policy = .abort ∧ ∃ cause, reason = .synthesisFailed cause)) ∧
    (∀ failure,
      (ofRegistries registry environment supports policy).validate accepted name = .error failure ↔
        policy = .abort ∧
          ∃ cause, (ofRegistries registry environment supports policy).Refuses accepted name
              (.synthesisFailed cause) ∧
            failure = .synthesis name cause) ∧
    (∀ (registry' environment' : Registry) (accepted' : QualifierSet),
      registry.resolve.SameButTargets registry'.resolve →
      environment.resolve.SameButTargets environment'.resolve →
      accepted'.names = accepted.names →
      (SameAnswer ((ofRegistries registry environment supports policy).validate accepted name)
          ((ofRegistries registry' environment' supports policy).validate accepted' name) ↔
        ¬ (ofRegistries registry environment supports policy).TellsApart
          (ofRegistries registry' environment' supports policy) accepted name) ∧
      (supports.BlindToTargets →
        SameAnswer ((ofRegistries registry environment supports policy).validate accepted name)
          ((ofRegistries registry' environment' supports policy).validate accepted' name))) := by
  refine ⟨fun d => ?_, existsUnique_refuses_iff, fun reason => validate_eq_rejected_iff,
    fun failure => validate_eq_error_iff, ?_⟩
  · rw [validate_eq_accepted_iff]
    constructor
    · rintro ⟨⟨hresolve, hkind, htargets⟩, hpasses⟩
      exact ⟨hresolve, hkind, htargets, hpasses⟩
    · rintro ⟨hresolve, hkind, htargets, hpasses⟩
      exact ⟨⟨hresolve, hkind, htargets⟩, hpasses⟩
  · intro registry' environment' accepted' hregistry henvironment hnames
    have hsame := SameButTargets.ofRegistries hregistry henvironment supports policy
    exact ⟨hsame.validate hnames name, fun hblind => hsame.validate_of_blind hnames hblind name⟩

end Validator

/-- The registry of an annotation type without elements that has these targets. -/
def Registry.targeting (targets : List ElementType) : Registry where
  descriptors := [⟨"demo.Regex", .annotationType, some targets, none, [], []⟩]
  sorted := List.pairwise_singleton _ _
  faultless := by
    intro d hd
    rw [List.mem_singleton.mp hd]
    exact if_pos (show Name.isQualified "demo.Regex" = true by decide +kernel)

theorem Registry.sameButTargets_targeting {targets others : List ElementType}
    (h : SameMembers targets others) :
    (Registry.targeting targets).resolve.SameButTargets (Registry.targeting others).resolve := by
  intro name
  simp only [Registry.resolve, Registry.targeting, List.find?_singleton]
  split
  · exact .some ⟨rfl, .some h⟩
  · exact .none

/-- A list in another order and with a repeated member gives the same answer. -/
theorem Validator.decision_law_twoLists :
    (Registry.targeting [.typeUse, .typeParameter]).resolve.SameButTargets
        (Registry.targeting [.typeParameter, .typeUse, .typeParameter]).resolve ∧
      SameAnswer
        ((ofRegistries (.targeting [.typeUse, .typeParameter]) (.targeting [.typeUse, .typeParameter])
          .always .abort).validate .empty "demo.Regex")
        ((ofRegistries (.targeting [.typeParameter, .typeUse, .typeParameter])
          (.targeting [.typeParameter, .typeUse, .typeParameter]) .always .abort).validate .empty
            "demo.Regex") := by
  have hsame : (Registry.targeting [.typeUse, .typeParameter]).resolve.SameButTargets
      (Registry.targeting [.typeParameter, .typeUse, .typeParameter]).resolve :=
    Registry.sameButTargets_targeting fun target => by cases target <;> decide
  have hlaw := decision_law (.targeting [.typeUse, .typeParameter]) (.targeting [.typeUse, .typeParameter])
    .always .abort .empty "demo.Regex"
  exact ⟨hsame, (hlaw.2.2.2.2 _ _ .empty hsame hsame rfl).2 Support.blindToTargets_always⟩

/-- A predicate that asks for one list of targets, in its order. -/
def Support.listsTargets (targets : List ElementType) : Support :=
  fun d _ => d.targets? == some targets

/-- **A predicate can read the order of the targets.** Under one that does, the permuted list turns the answer
    from an acceptance into a rejection. -/
theorem Validator.permuting_changes_verdict :
    [ElementType.typeUse, .typeParameter].Perm [.typeParameter, .typeUse] ∧
      (Registry.targeting [.typeUse, .typeParameter]).resolve.SameButTargets
        (Registry.targeting [.typeParameter, .typeUse]).resolve ∧
      (∃ d, (ofRegistries (.targeting [.typeUse, .typeParameter]) (.targeting [.typeUse, .typeParameter])
        (.listsTargets [.typeUse, .typeParameter]) .abort).validate .empty "demo.Regex" =
          .ok (.accepted d)) ∧
      (ofRegistries (.targeting [.typeParameter, .typeUse]) (.targeting [.typeParameter, .typeUse])
        (.listsTargets [.typeUse, .typeParameter]) .abort).validate .empty "demo.Regex" =
          .ok (.rejected .unsupported) ∧
      ¬ SameAnswer
        ((ofRegistries (.targeting [.typeUse, .typeParameter]) (.targeting [.typeUse, .typeParameter])
          (.listsTargets [.typeUse, .typeParameter]) .abort).validate .empty "demo.Regex")
        ((ofRegistries (.targeting [.typeParameter, .typeUse]) (.targeting [.typeParameter, .typeUse])
          (.listsTargets [.typeUse, .typeParameter]) .abort).validate .empty "demo.Regex") := by
  have hsame : (Registry.targeting [.typeUse, .typeParameter]).resolve.SameButTargets
      (Registry.targeting [.typeParameter, .typeUse]).resolve :=
    Registry.sameButTargets_targeting fun target => by cases target <;> decide
  have haccepted : ∃ d, (ofRegistries (.targeting [.typeUse, .typeParameter])
      (.targeting [.typeUse, .typeParameter]) (.listsTargets [.typeUse, .typeParameter])
        .abort).validate .empty "demo.Regex" = .ok (.accepted d) := ⟨_, rfl⟩
  have hrejected : (ofRegistries (.targeting [.typeParameter, .typeUse])
      (.targeting [.typeParameter, .typeUse]) (.listsTargets [.typeUse, .typeParameter])
        .abort).validate .empty "demo.Regex" = .ok (.rejected .unsupported) := rfl
  refine ⟨.swap _ _ [], hsame, haccepted, hrejected, fun hanswer => ?_⟩
  obtain ⟨d, haccepted⟩ := haccepted
  rw [haccepted, hrejected] at hanswer
  exact nomatch hanswer

end QualifierDiscovery
