import QualifierDiscovery.Proofs.ExternalLoading

/-!
# `Proofs.FailurePolicies` — what the failure policy decides

The policy is asked at one place only, where a candidate of the right form fails synthesis. So up to the
first such candidate the two policies do the same, and there `abort` ends with the failed synthesis, while
`skip` leaves the candidate out and goes on. `Follows` relates two results in this way, and is kept by
everything that is built from the verdicts.

## Contents
- **Results under the two policies.** `Follows`, and `Follows.bind`: an early end changes nothing but what
  would have come after it.
- **Verdicts and passes.** `validate_withPolicy_cases` for one candidate, `acceptAll_follows` for a whole
  pass.
- **Builds and loads.** `build_follows`, `loadDirectory_follows`, `loadClass_follows`, and together
  `skip_refines_abort`.
-/

namespace QualifierDiscovery

/-! ## Results under the two policies -/

/-- A result under the policy `skip` follows the one under `abort`: it is the same, but if that one is a
    failed synthesis, it is as `instead` says. -/
def Follows {α : Type} (instead : String → SynthesisError → Except LoadError α → Prop)
    (aborting skipping : Except LoadError α) : Prop :=
  match aborting with
  | .error (.synthesis name cause) => instead name cause skipping
  | _ => skipping = aborting

namespace Follows

variable {α β : Type} {instead : String → SynthesisError → Except LoadError α → Prop}
  {insteadAfter : String → SynthesisError → Except LoadError β → Prop}
  {aborting skipping : Except LoadError α}

/-- What goes on from results that follow each other follows too, if it makes up for a failed synthesis. -/
theorem bind {next next' : α → Except LoadError β} (h : Follows instead aborting skipping)
    (hnext : ∀ a, Follows insteadAfter (next a) (next' a))
    (hinstead : ∀ name cause skipped, instead name cause skipped →
      insteadAfter name cause (skipped >>= next')) :
    Follows insteadAfter (aborting >>= next) (skipping >>= next') := by
  cases aborting with
  | ok a =>
    have hsame : skipping = .ok a := h
    rw [hsame]
    exact hnext a
  | error failure =>
    cases failure with
    | synthesis name cause => exact hinstead name cause skipping h
    | _ =>
      -- any other failure is that of both, and nothing comes after it
      rw [show skipping = _ from h]
      rfl

theorem map {f : α → β} (h : Follows instead aborting skipping)
    (hinstead : ∀ name cause skipped, instead name cause skipped →
      insteadAfter name cause (f <$> skipped)) :
    Follows insteadAfter (f <$> aborting) (f <$> skipping) := by
  rw [map_eq_pure_bind, map_eq_pure_bind]
  refine h.bind (fun a => rfl) ?_
  intro name cause skipped hskipped
  rw [← map_eq_pure_bind]
  exact hinstead name cause skipped hskipped

theorem imp {instead' : String → SynthesisError → Except LoadError α → Prop}
    (h : Follows instead aborting skipping)
    (hinstead : ∀ name cause, instead name cause skipping → instead' name cause skipping) :
    Follows instead' aborting skipping := by
  unfold Follows at h ⊢
  split at h
  · exact hinstead _ _ h
  · exact h

end Follows

/-! ## Verdicts and passes -/

namespace Validator

variable {v : Validator} {policy : FailurePolicy} {name : String} {cause : SynthesisError}
  {set : QualifierSet}

/-- The validator under another policy. -/
def withPolicy (v : Validator) (policy : FailurePolicy) : Validator := { v with policy := policy }

theorem withPolicy_eq_self (h : v.policy = policy) : v.withPolicy policy = v := by
  subst h
  rfl

theorem wellShaped_withPolicy {d : ClassDescriptor} :
    (v.withPolicy policy).WellShaped name d ↔ v.WellShaped name d := by
  constructor
  · intro h
    exact ⟨h.resolved, h.kind_eq, h.typeUse⟩
  · intro h
    exact ⟨h.resolved, h.kind_eq, h.typeUse⟩

theorem settled_withPolicy : (v.withPolicy policy).Settled set ↔ v.Settled set := by
  refine forall₂_congr fun d _ => ?_
  constructor
  · rintro ⟨hwell, hsupported⟩
    exact ⟨wellShaped_withPolicy.mp hwell, hsupported⟩
  · rintro ⟨hwell, hsupported⟩
    exact ⟨wellShaped_withPolicy.mpr hwell, hsupported⟩

/-- **What the policy decides about one candidate.** Its verdict has nothing to do with the policy, or it
    fails synthesis, which stops the search under `abort` and is a rejection under `skip`. -/
theorem validate_withPolicy_cases (v : Validator) (known : QualifierSet) (name : String) :
    (∃ verdict, ∀ policy, (v.withPolicy policy).validate known name = .ok verdict) ∨
      ∃ cause, v.FailsSynthesis name cause ∧
        (v.withPolicy .abort).validate known name = .error (.synthesis name cause) ∧
        (v.withPolicy .skip).validate known name = .ok (.rejected (.synthesisFailed cause)) := by
  have hshape : ∀ policy, (v.withPolicy policy).checkShape name = v.checkShape name := fun _ => rfl
  unfold validate
  simp only [hshape]
  cases hfound : v.checkShape name with
  | error reason => exact Or.inl ⟨.rejected reason, fun _ => rfl⟩
  | ok d =>
    by_cases hknown : known.contains d.name = true
    · exact Or.inl ⟨.accepted d, fun _ => if_pos hknown⟩
    · -- only now is the candidate synthesized, and the policy asked if that fails
      simp only [hknown, judge, withPolicy]
      cases hsynth : v.synthesize d with
      | error cause =>
        have hfails : v.FailsSynthesis name cause := ⟨d, checkShape_eq_ok_iff.mp hfound, hsynth⟩
        exact Or.inr ⟨cause, hfails, rfl, rfl⟩
      | ok mirror =>
        left
        by_cases hsupport : v.supports d mirror = true
        · exact ⟨.accepted d, fun _ => if_pos hsupport⟩
        · exact ⟨.rejected .unsupported, fun _ => if_neg hsupport⟩

theorem validate_follows (v : Validator) (known : QualifierSet) (name : String) :
    Follows
      (fun failing cause skipped => failing = name ∧ v.FailsSynthesis name cause ∧
        skipped = .ok (.rejected (.synthesisFailed cause)))
      ((v.withPolicy .abort).validate known name) ((v.withPolicy .skip).validate known name) := by
  rcases v.validate_withPolicy_cases known name with ⟨verdict, hverdict⟩ | ⟨cause, hfails, habort, hskip⟩
  · rw [hverdict, hverdict]
    rfl
  · rw [habort, hskip]
    exact ⟨rfl, hfails, rfl⟩

/-- A pass that skips failed syntheses gets to its end. -/
theorem exists_acceptAll_skip (v : Validator) (known : QualifierSet → QualifierSet)
    (names : List String) (found : QualifierSet) :
    ∃ set, (v.withPolicy .skip).acceptAll known found names = .ok set := by
  induction names generalizing found with
  | nil => exact ⟨found, rfl⟩
  | cons name rest ih =>
    unfold acceptAll
    rcases v.validate_withPolicy_cases (known found) name with
      ⟨verdict, hverdict⟩ | ⟨cause, -, -, hskip⟩
    · rw [hverdict]
      cases verdict with
      | accepted d => exact ih (found.insert d)
      | rejected reason => exact ih found
    · rw [hskip]
      exact ih found

/-- **A whole pass.** By induction over the candidates: up to the first that fails synthesis the two passes
    have found the same, whatever is accepted or rejected on the way. -/
theorem acceptAll_follows (v : Validator) (known : QualifierSet → QualifierSet)
    (names : List String) (found : QualifierSet) :
    Follows
      (fun failing cause skipped => failing ∈ names ∧ v.FailsSynthesis failing cause ∧
        ∃ set, skipped = .ok set)
      ((v.withPolicy .abort).acceptAll known found names)
      ((v.withPolicy .skip).acceptAll known found names) := by
  induction names generalizing found with
  | nil => rfl
  | cons name rest ih =>
    unfold acceptAll
    refine (v.validate_follows (known found) name).bind (fun verdict => ?_) ?_
    · cases verdict <;> exact (ih _).imp fun _ _ h => ⟨List.mem_cons_of_mem name h.1, h.2⟩
    · -- here the aborting pass ends, and the other one goes on without the candidate
      rintro failing cause skipped ⟨rfl, hfails, rfl⟩
      exact ⟨List.mem_cons_self, hfails, v.exists_acceptAll_skip known rest found⟩

/-- A candidate that fails synthesis is in no set of qualifiers. -/
theorem notMem_names_of_failsSynthesis (hset : v.Settled set) (hfails : v.FailsSynthesis name cause) :
    name ∉ set.names := by
  intro hname
  obtain ⟨d, hd, rfl⟩ := List.mem_map.mp hname
  obtain ⟨found, hwell, hsynth⟩ := hfails
  obtain ⟨hown, mirror, hmirror, -⟩ := hset d hd
  rw [hwell.unique hown, hmirror] at hsynth
  exact absurd hsynth (by simp)

/-- Judged against qualifiers only, the candidate for which a pass aborts is left out under `skip`. -/
theorem acceptAll_follows_omitting {known : QualifierSet → QualifierSet} (hkeyed : v.resolve.Keyed)
    (hknown : ∀ set, v.Settled set → v.Settled (known set)) (names : List String)
    {found : QualifierSet} (hfound : v.Settled found) :
    Follows (fun failing _ skipped => ∃ set, skipped = .ok set ∧ failing ∉ set.names)
      ((v.withPolicy .abort).acceptAll known found names)
      ((v.withPolicy .skip).acceptAll known found names) := by
  refine (v.acceptAll_follows known names found).imp ?_
  rintro failing cause ⟨-, hfails, set, hset⟩
  refine ⟨set, hset, ?_⟩
  have hsettled : (v.withPolicy .skip).Settled set := by
    have hpass := @acceptAll_eq (v.withPolicy .skip) known hkeyed
      (fun set hset => settled_withPolicy.mpr (hknown set (settled_withPolicy.mp hset))) names
      found (settled_withPolicy.mpr hfound)
    rw [hset] at hpass
    split at hpass
    · exact absurd hpass (by simp)
    · rw [Except.ok.inj hpass]
      exact settled_insertAll hkeyed (settled_withPolicy.mpr hfound)
  exact notMem_names_of_failsSynthesis (settled_withPolicy.mp hsettled) hfails

end Validator

/-! ## Loads -/

namespace Loader

/-- The loader under another policy. -/
def withPolicy (loader : Loader) (policy : FailurePolicy) : Loader :=
  { loader with
    config := { loader.config with failurePolicy := policy }
    validator := loader.validator.withPolicy policy }

variable {loader : Loader}

theorem withPolicy_eq_self {policy : FailurePolicy} (hconfig : loader.config.failurePolicy = policy)
    (hvalidator : loader.validator.policy = policy) : loader.withPolicy policy = loader := by
  unfold withPolicy
  rw [Validator.withPolicy_eq_self hvalidator]
  subst hconfig
  rfl

/-- A load from a directory that aborts for a candidate gives under `skip` a set without it. -/
theorem loadDirectory_follows (hkeyed : loader.validator.resolve.Keyed)
    (hsettled : loader.validator.Settled loader.loaded) (files : FileSystem) (path : String) :
    Follows (fun failing _ skipped => ∃ set, skipped = .ok set ∧ failing ∉ set.names)
      ((loader.withPolicy .abort).loadDirectory files path).1
      ((loader.withPolicy .skip).loadDirectory files path).1 := by
  by_cases hdir : files.isDirectory path = true
  · have hload : ∀ policy, ((loader.withPolicy policy).loadDirectory files path).1 =
        (loader.validator.withPolicy policy).acceptAll (fun _ => loader.loaded) .empty
          (loader.candidatesBelow files path) := by
      intro policy
      unfold loadDirectory
      rw [if_pos hdir]
      rfl
    rw [hload, hload]
    exact Validator.acceptAll_follows_omitting hkeyed (fun _ _ => hsettled) _
      Validator.settled_empty
  · have hmissing : files.isDirectory path = false := Bool.not_eq_true _ ▸ hdir
    rw [loadDirectory_of_not_isDirectory hmissing, loadDirectory_of_not_isDirectory hmissing]
    rfl

/-- A load by name that aborts is under `skip` the user's failure, with the reason in its message. -/
theorem loadClass_follows (loader : Loader) (name : String) :
    Follows
      (fun failing cause skipped => failing = name ∧ skipped = .error (.user loader.checker.name
        ("the loaded class: " ++ name ++ " cannot be used as a type qualifier: "
          ++ ("structural synthesis failed: " ++ cause.message))))
      ((loader.withPolicy .abort).loadClass name).1
      ((loader.withPolicy .skip).loadClass name).1 := by
  rw [loadClass_eq_bind, loadClass_eq_bind]
  refine (loader.validator.validate_follows loader.loaded name).bind (fun verdict => ?_) ?_
  · cases verdict with
    | accepted d => rfl
    | rejected reason => rfl
  · rintro failing cause skipped ⟨rfl, -, rfl⟩
    exact ⟨rfl, rfl⟩

end Loader

/-! ## Builds -/

namespace LoaderSetup

/-- The setup under another policy. -/
def withPolicy (setup : LoaderSetup) (policy : FailurePolicy) : LoaderSetup :=
  { setup with config := { setup.config with failurePolicy := policy } }

variable {setup : LoaderSetup} {fs : FileSystem}

/-- What has to be right before anything is searched has nothing to do with the policy. -/
theorem check_withPolicy (setup : LoaderSetup) (policy : FailurePolicy) :
    (setup.withPolicy policy).check = setup.check := by
  have hfault : (setup.withPolicy policy).config.fault? = setup.config.fault? := rfl
  unfold check Config.check
  rw [hfault]
  cases setup.config.fault? with
  | some fault => rfl
  | none => rfl

/-- What is not right with a setup is no failed synthesis. -/
theorem check_ne_synthesis {name : String} {cause : SynthesisError} :
    setup.check ≠ .error (.synthesis name cause) := by
  unfold check Config.check
  cases setup.config.fault? with
  | some fault => simp [bind, Except.bind]
  | none =>
    cases setup.resolver with
    | none => simp [bind, Except.bind]
    | some resolver =>
      cases hpackage : Package.forNamespace? setup.checker.namespaceName
          setup.config.packageSuffix with
      | none => simp [bind, Except.bind, hpackage]
      | some package => simp [bind, Except.bind, hpackage]

/-- A build that aborts for a candidate gives under `skip` a loader without it. -/
theorem build_follows {registry : Registry} (hresolver : setup.resolver = some registry.resolve)
    (fs : FileSystem) :
    Follows
      (fun failing _ skipped => ∃ loader, skipped = .ok loader ∧ failing ∉ loader.loaded.names)
      ((fun loader => loader.withPolicy .skip) <$> ((setup.withPolicy .abort).build fs).1)
      ((setup.withPolicy .skip).build fs).1 := by
  cases hcheck : setup.check with
  | error failure =>
    have hbuild : ∀ policy, ((setup.withPolicy policy).build fs).1 = .error failure := by
      intro policy
      unfold build
      rw [check_withPolicy, hcheck]
    rw [hbuild, hbuild]
    cases failure with
    | synthesis name cause => exact absurd hcheck check_ne_synthesis
    | _ => rfl
  | ok parts =>
    obtain ⟨resolver, package⟩ := parts
    obtain rfl : resolver = registry.resolve :=
      Option.some.inj ((check_eq_ok_iff.mp hcheck).2.1.symm.trans hresolver)
    have hchecks : ∀ policy, (setup.withPolicy policy).check = .ok (registry.resolve, package) :=
      fun policy => (setup.check_withPolicy policy).trans hcheck
    rcases setup.candidates_or_closed fs package with
      ⟨candidates, hcandidates⟩ | ⟨location, hlocation, hclosed⟩
    · -- the location and its candidates are the same, so all that can differ is the pass over them
      have hbuild : ∀ policy, ((setup.withPolicy policy).build fs).1 =
          (fun loaded => Loader.withPolicy ⟨setup.checker, setup.config, package,
              setup.location fs package, setup.validatorFor registry.resolve, loaded⟩ policy) <$>
            ((setup.validatorFor registry.resolve).withPolicy policy).acceptAll id .empty
              (candidates.map package.qualify) := by
        intro policy
        have hsame : bundledNames fs (setup.withPolicy policy).config.layout package
            ((setup.withPolicy policy).location fs package) = .ok candidates := hcandidates
        rw [build_eq (hchecks policy)]
        unfold loadBundled
        rw [hsame]
        rfl
      have hpass := @Validator.acceptAll_follows_omitting (setup.validatorFor registry.resolve) id
        registry.resolve_keyed (fun _ hset => hset) (candidates.map package.qualify) .empty
        Validator.settled_empty
      rw [hbuild, hbuild, Functor.map_map]
      refine hpass.map ?_
      rintro failing cause skipped ⟨set, rfl, homitted⟩
      exact ⟨_, rfl, homitted⟩
    · -- the package cannot be listed, which has nothing to do with the policy either
      rw [build_of_closed (hchecks .abort) hlocation hclosed, build_of_closed (hchecks .skip) hlocation hclosed]
      rfl

/-- **The policy `skip` refines `abort`.** A build that succeeds under `abort` gives under `skip` the same
    loader, but for the policy: with the same location and the same qualifiers in the same order. One that
    aborts for a candidate gives a loader without it, and one that fails for another reason fails for it
    under both. The same holds of all loads of the two loaders, where a load by name has no
    set to leave the candidate out of, and tells the user why it cannot be synthesized. -/
theorem skip_refines_abort {registry : Registry} (hresolver : setup.resolver = some registry.resolve)
    (fs : FileSystem) :
    Follows
      (fun failing _ skipped => ∃ loader, skipped = .ok loader ∧ failing ∉ loader.loaded.names)
      ((fun loader => loader.withPolicy .skip) <$> ((setup.withPolicy .abort).build fs).1)
      ((setup.withPolicy .skip).build fs).1 ∧
    ∀ aborting skipping, ((setup.withPolicy .abort).build fs).1 = .ok aborting →
      ((setup.withPolicy .skip).build fs).1 = .ok skipping →
      skipping.location = aborting.location ∧ skipping.loaded = aborting.loaded ∧
      (∀ files path, Follows
        (fun failing _ skipped => ∃ set, skipped = .ok set ∧ failing ∉ set.names)
        (aborting.loadDirectory files path).1 (skipping.loadDirectory files path).1) ∧
      ∀ name, Follows
        (fun failing cause skipped => failing = name ∧
          skipped = .error (.user aborting.checker.name
            ("the loaded class: " ++ name ++ " cannot be used as a type qualifier: "
              ++ ("structural synthesis failed: " ++ cause.message))))
        (aborting.loadClass name).1 (skipping.loadClass name).1 := by
  have hfollows := build_follows hresolver fs
  refine ⟨hfollows, fun aborting skipping haborting hskipping => ?_⟩
  -- the two loaders are one, under the two policies
  obtain rfl : skipping = aborting.withPolicy .skip := by
    rw [haborting, hskipping] at hfollows
    exact Except.ok.inj hfollows
  have hbuilds := @builds_of_build (setup.withPolicy .abort) _ _ _ hresolver haborting
  have hpolicy : aborting.config.failurePolicy = .abort := by
    rw [hbuilds.config_eq]
    rfl
  have hsame : aborting.withPolicy .abort = aborting :=
    Loader.withPolicy_eq_self hpolicy (hbuilds.policy_eq.trans hpolicy)
  have hdirectory := Loader.loadDirectory_follows (hbuilds.keyed registry.resolve_keyed)
    (hbuilds.settled registry.resolve_keyed)
  have hclass := aborting.loadClass_follows
  rw [hsame] at hdirectory hclass
  exact ⟨rfl, rfl, hdirectory, hclass⟩

/-- The standard setup for the package `qual`, in which no annotation type can be synthesized. -/
def noSynthesis (name : String) (h : Name.isQualified name = true) : LoaderSetup :=
  { oneQualifier name h with synthesizer := some fun d => .error (.unknownType d.name) }

theorem skip_refines_abort_noSynthesis :
    ∃ aborting skipping,
      (((noSynthesis "B" (by decide)).withPolicy .abort).build (oneFile "C.class" (by decide))).1 =
        .ok aborting ∧
      (((noSynthesis "B" (by decide)).withPolicy .skip).build (oneFile "C.class" (by decide))).1 =
        .ok skipping ∧
      skipping.loaded = aborting.loaded ∧
      (aborting.loadClass "B").1 = .error (.synthesis "B" (.unknownType "B")) ∧
      (skipping.loadClass "B").1 = .error (.user "Demo"
        ("the loaded class: B cannot be used as a type qualifier: structural synthesis failed: "
          ++ "annotation type B is unknown to the processing environment")) := by
  have hbuilds : ∃ aborting skipping,
      (((noSynthesis "B" (by decide)).withPolicy .abort).build (oneFile "C.class" (by decide))).1 =
        .ok aborting ∧
      (((noSynthesis "B" (by decide)).withPolicy .skip).build (oneFile "C.class" (by decide))).1 =
        .ok skipping ∧
      aborting.checker.name = "Demo" ∧
      (aborting.loadClass "B").1 = .error (.synthesis "B" (.unknownType "B")) :=
    ⟨_, _, rfl, rfl, rfl, rfl⟩
  obtain ⟨aborting, skipping, haborting, hskipping, hchecker, hclass⟩ := hbuilds
  obtain ⟨-, hloaders⟩ :=
    @skip_refines_abort (noSynthesis "B" (by decide)) (.single "B" (by decide)) rfl
      (oneFile "C.class" (by decide))
  obtain ⟨-, hloaded, -, hfollows⟩ := hloaders aborting skipping haborting hskipping
  have hskipped := hfollows "B"
  rw [hclass, hchecker] at hskipped
  obtain ⟨-, hmessage⟩ := hskipped
  exact ⟨aborting, skipping, haborting, hskipping, hloaded, hclass, hmessage⟩

end LoaderSetup

end QualifierDiscovery
