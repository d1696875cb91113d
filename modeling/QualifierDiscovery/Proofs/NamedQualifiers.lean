import QualifierDiscovery.Proofs.ExternalLoading

/-!
# `Proofs.NamedQualifiers` — three ways to one qualifier

A qualifier can be bundled, lie in a directory of the user's, or be named by the user. Each way goes by the
same verdict and treats it in its own manner: what a pass over candidates leaves out is a failure where the
user has asked for the name. So the three agree, up to that treatment: a load by name, and a load from a
directory that holds this name only, both come to the verdict on the name (`loadClass_eq`,
`loadDirectory_of_only`), and a bundled candidate can be loaded by name exactly if it was accepted.

## Contents
- **One candidate.** `insertAll_replicate` — a name that several files give is one qualifier.
- **Loads.** `Only` — the candidates below a directory are one name; `loadDirectory_of_only`.
- **Agreement.** `ways_agree` compares the three ways.
-/

namespace QualifierDiscovery

/-! ## One candidate -/

namespace QualifierSet

variable {set : QualifierSet} {d : ClassDescriptor}

theorem insert_of_mem (h : d.name ∈ set.names) : set.insert d = set := dif_pos h

theorem insertAll_of_forall_mem {ds : List ClassDescriptor} (h : ∀ d ∈ ds, d.name ∈ set.names) :
    set.insertAll ds = set := by
  induction ds with
  | nil => rfl
  | cons first rest ih =>
    show (set.insert first).insertAll rest = set
    rw [insert_of_mem (h first List.mem_cons_self)]
    exact ih fun d hd => h d (List.mem_cons_of_mem _ hd)

/-- One descriptor, put into the empty set any number of times, is its only member. -/
theorem insertAll_replicate (count : Nat) (d : ClassDescriptor) :
    empty.insertAll (List.replicate (count + 1) d) = empty.insert d := by
  rw [List.replicate_succ]
  show (empty.insert d).insertAll (List.replicate count d) = empty.insert d
  apply insertAll_of_forall_mem
  intro other hother
  rw [List.eq_of_mem_replicate hother]
  exact List.mem_singleton.mpr rfl

theorem members_insert_empty (d : ClassDescriptor) : (empty.insert d).members = [d] := rfl

end QualifierSet

/-! ## Loads -/

/-- A walk below a directory that finds anything starts at a directory. -/
theorem FileSystem.isDirectory_of_mem_filesBelow {files : FileSystem} {path : String}
    {names : List String} (h : names ∈ files.filesBelow path) : files.isDirectory path = true := by
  unfold filesBelow at h
  split at h
  · next place entries hresolve => exact isDirectory_iff.mpr ⟨place, entries, hresolve⟩
  · exact absurd h List.not_mem_nil

namespace Loader

variable {loader : Loader} {files : FileSystem} {path name : String}

/-- The files below a directory give this name, as often as may be, and no other. -/
structure Only (loader : Loader) (files : FileSystem) (path name : String) : Prop where
  found : name ∈ loader.candidatesBelow files path
  only : ∀ other ∈ loader.candidatesBelow files path, other = name

theorem Only.isDirectory (h : loader.Only files path name) : files.isDirectory path = true := by
  have hfound := h.found
  unfold candidatesBelow externalNames at hfound
  obtain ⟨names, hnames, -⟩ := List.mem_filterMap.mp hfound
  exact FileSystem.isDirectory_of_mem_filesBelow hnames

theorem Only.exists_replicate (h : loader.Only files path name) :
    ∃ count, loader.candidatesBelow files path = List.replicate (count + 1) name := by
  have hall := List.eq_replicate_of_mem h.only
  have hpositive := List.length_pos_of_mem h.found
  refine ⟨(loader.candidatesBelow files path).length - 1, ?_⟩
  rw [Nat.sub_add_cancel hpositive]
  exact hall

/-- A load by name comes to the verdict on the name, whatever is bundled. -/
theorem loadClass_eq (hkeyed : loader.validator.resolve.Keyed)
    (hsettled : loader.validator.Settled loader.loaded) (name : String) :
    (loader.loadClass name).1 =
      match loader.validator.validate .empty name with
      | .error failure => .error failure
      | .ok (.accepted d) => .ok d
      | .ok (.rejected reason) => .error (.user loader.checker.name (refusal name reason)) := by
  rw [loadClass_eq_bind, Validator.validate_eq_validate_empty hkeyed hsettled]
  cases loader.validator.validate .empty name with
  | error failure => rfl
  | ok verdict => cases verdict <;> rfl

/-- **So does a load from a directory that holds this name only**, which leaves a rejected name out. -/
theorem loadDirectory_of_only (hkeyed : loader.validator.resolve.Keyed)
    (hsettled : loader.validator.Settled loader.loaded) (h : loader.Only files path name) :
    (loader.loadDirectory files path).1 =
      match loader.validator.validate .empty name with
      | .error failure => .error failure
      | .ok (.accepted d) => .ok (QualifierSet.empty.insert d)
      | .ok (.rejected _) => .ok .empty := by
  obtain ⟨count, hcandidates⟩ := h.exists_replicate
  rw [loadDirectory_of_isDirectory hkeyed hsettled h.isDirectory, hcandidates]
  dsimp only
  cases hverdict : loader.validator.validate .empty name with
  | error failure =>
    have habort : loader.validator.abort? name = some failure := by
      rw [Validator.abort?, hverdict]
    rw [List.replicate_succ, List.findSome?_cons, habort]
  | ok verdict =>
    have habort : loader.validator.abort? name = none := by
      rw [Validator.abort?, hverdict]
    have hnone : (List.replicate (count + 1) name).findSome? loader.validator.abort? = none := by
      rw [List.findSome?_eq_none_iff]
      intro other hother
      rw [List.eq_of_mem_replicate hother]
      exact habort
    rw [hnone]
    cases verdict with
    | accepted d =>
      have haccepted : loader.validator.accepted? name = some d := by
        rw [Validator.accepted?, hverdict]
      rw [List.filterMap_replicate_of_some haccepted, QualifierSet.insertAll_replicate]
    | rejected reason =>
      have hrejected : loader.validator.accepted? name = none := by
        rw [Validator.accepted?, hverdict]
      rw [List.filterMap_replicate_of_none hrejected]
      rfl

end Loader

/-! ## Agreement -/

section

variable {setup : LoaderSetup} {fs : FileSystem} {loader : Loader}

/-- A loader gives by name exactly the names that pass every step of its validation. -/
theorem Loader.loadClass_eq_ok_iff (hkeyed : loader.validator.resolve.Keyed)
    (hsettled : loader.validator.Settled loader.loaded) {name : String} {d : ClassDescriptor} :
    (loader.loadClass name).1 = .ok d ↔ loader.validator.Qualifies name d := by
  rw [← Validator.validate_empty_eq_accepted_iff, Loader.loadClass_eq hkeyed hsettled]
  cases loader.validator.validate .empty name with
  | error failure => simp
  | ok verdict => cases verdict <;> simp

/-- **The three ways to name a qualifier agree.** From a directory whose files give one name only, a built
    loader loads a single qualifier exactly if it loads that same one by name; it fails for a synthesis
    exactly if the load by name fails in the same way; and it loads nothing exactly if the load by name is
    the user's failure. What was listed where the package is bundled can be loaded by name exactly as far
    as it is among the bundled qualifiers. -/
theorem LoaderSetup.ways_agree {registry : Registry}
    (hresolver : setup.resolver = some registry.resolve)
    (hbuild : (setup.build fs).1 = .ok loader) :
    (∀ files path name, loader.Only files path name →
      (∀ d, (loader.loadClass name).1 = .ok d ↔
        ∃ set, (loader.loadDirectory files path).1 = .ok set ∧ set.members = [d]) ∧
      (∀ failing cause, (loader.loadClass name).1 = .error (.synthesis failing cause) ↔
        (loader.loadDirectory files path).1 = .error (.synthesis failing cause)) ∧
      ((∃ checker message, (loader.loadClass name).1 = .error (.user checker message)) ↔
        ∃ set, (loader.loadDirectory files path).1 = .ok set ∧ set.members = [])) ∧
    ∃ candidates,
      bundledNames fs setup.config.layout loader.package loader.location = .ok candidates ∧
      ∀ s ∈ candidates, (∃ d, (loader.loadClass (loader.package.qualify s)).1 = .ok d) ↔
        loader.package.qualify s ∈ loader.loaded.names := by
  have hbuilds := builds_of_build hresolver hbuild
  have hkeyed := hbuilds.keyed registry.resolve_keyed
  have hsettled := hbuilds.settled registry.resolve_keyed
  constructor
  · intro files path name honly
    rw [Loader.loadClass_eq hkeyed hsettled, Loader.loadDirectory_of_only hkeyed hsettled honly]
    cases hverdict : loader.validator.validate .empty name with
    | error failure =>
      -- only a failed synthesis stops a load
      obtain ⟨-, cause, -, rfl⟩ := Validator.validate_empty_eq_error_iff.mp hverdict
      simp
    | ok verdict =>
      cases verdict with
      | accepted d => simp [QualifierSet.members_insert_empty]
      | rejected reason => simp [QualifierSet.empty]
  · obtain ⟨candidates, hcandidates⟩ := hbuilds.exists_candidates
    refine ⟨candidates, hcandidates, fun s hs => ?_⟩
    have hmem := @Builds.mem_names_iff setup _ fs loader candidates (loader.package.qualify s) hbuilds
      registry.resolve_keyed hcandidates
    rw [hmem]
    simp only [Loader.loadClass_eq_ok_iff hkeyed hsettled]
    rw [hbuilds.validator_eq]
    constructor
    · intro hqualifies
      exact ⟨s, hs, rfl, hqualifies⟩
    · rintro ⟨-, -, -, hqualifies⟩
      exact hqualifies

theorem LoaderSetup.ways_agree_oneSource :
    ∃ loader set d, ((oneQualifier "B" (by decide)).build
        (oneSource "B.java" (by decide))).1 = .ok loader ∧
      loader.Only (oneSource "B.java" (by decide)) "/src" "B" ∧
      (loader.loadClass "B").1 = .ok d ∧
      (loader.loadDirectory (oneSource "B.java" (by decide)) "/src").1 = .ok set ∧
      set.members = [d] := by
  have hbuilds : ∃ loader d, ((oneQualifier "B" (by decide)).build
        (oneSource "B.java" (by decide))).1 = .ok loader ∧
      loader.candidatesBelow (oneSource "B.java" (by decide)) "/src" = ["B"] ∧
      (loader.loadClass "B").1 = .ok d :=
    ⟨_, _, rfl, by decide +kernel, rfl⟩
  obtain ⟨loader, d, hbuild, hcandidates, hclass⟩ := hbuilds
  have honly : loader.Only (oneSource "B.java" (by decide)) "/src" "B" := by
    constructor
    · rw [hcandidates]
      exact List.mem_singleton.mpr rfl
    · rw [hcandidates]
      exact fun other hother => List.mem_singleton.mp hother
  obtain ⟨hways, -⟩ := ways_agree rfl hbuild
  obtain ⟨hloads, -⟩ := hways _ _ _ honly
  obtain ⟨set, hset, hmembers⟩ := (hloads d).mp hclass
  exact ⟨loader, set, d, hbuild, honly, hclass, hset, hmembers⟩

end

end QualifierDiscovery
