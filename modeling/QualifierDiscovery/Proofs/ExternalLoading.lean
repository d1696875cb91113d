import QualifierDiscovery.Proofs.BundledLoading

/-!
# `Proofs.ExternalLoading` — what a built loader gives its user

A built loader judges the user's candidates against its bundled qualifiers, and puts what it accepts into
a set of its own. Since every bundled qualifier has passed all steps under the same validator, nothing
depends on which are bundled; and a load from a directory is one pass over the candidates there, with
the outcome of `Validator.acceptAll_eq`.

## Contents
- **What a load comes to.** `loadDirectory_of_isDirectory` — one pass over the candidates;
  `loadClass_eq_bind` — one verdict, worded for the user.
- **Loads without the bundled set.** `bundled_unobservable` — the verdicts, and with them all loads, are
  those of a loader with no bundled qualifier.
- **Loads from a directory.** `loadDirectory_exact` — which names are loaded and in which order, and when
  the load fails.
-/

namespace QualifierDiscovery

/-! ## What a load comes to -/

namespace Loader

variable {loader : Loader} {files : FileSystem} {path : String}

/-- The loader as if nothing were bundled. -/
def withoutBundled (loader : Loader) : Loader := { loader with loaded := .empty }

/-- The candidates that a loader finds below a directory, in the order of their files. A name that
    several files give occurs once for each of them. -/
def candidatesBelow (loader : Loader) (files : FileSystem) (path : String) : List String :=
  externalNames files loader.config.layout path

theorem loadDirectory_of_not_isDirectory (hdir : files.isDirectory path = false) :
    loader.loadDirectory files path =
      loader.userFailure
        ("qualifier directory " ++ path ++ " does not exist or is not a directory") := by
  unfold loadDirectory
  rw [if_neg (by simp [hdir])]

/-- A load from a directory is one pass over the candidates there, whose outcome does not depend on what
    is bundled. -/
theorem loadDirectory_of_isDirectory (hkeyed : loader.validator.resolve.Keyed)
    (hsettled : loader.validator.Settled loader.loaded) (hdir : files.isDirectory path = true) :
    loader.loadDirectory files path =
      (match (loader.candidatesBelow files path).findSome? loader.validator.abort? with
        | some failure => .error failure
        | none => .ok (QualifierSet.empty.insertAll
            ((loader.candidatesBelow files path).filterMap loader.validator.accepted?)), []) := by
  unfold loadDirectory
  rw [if_pos hdir]
  dsimp only
  rw [Validator.acceptAll_eq hkeyed (fun _ _ => hsettled) _ Validator.settled_empty]
  rfl

/-- A set that is loaded from a directory holds what is accepted of the candidates there. -/
theorem eq_of_loadDirectory_eq_ok {set : QualifierSet} (hkeyed : loader.validator.resolve.Keyed)
    (hsettled : loader.validator.Settled loader.loaded)
    (hload : (loader.loadDirectory files path).1 = .ok set) :
    set = QualifierSet.empty.insertAll
      ((loader.candidatesBelow files path).filterMap loader.validator.accepted?) := by
  cases hdir : files.isDirectory path with
  | false =>
    rw [loadDirectory_of_not_isDirectory hdir] at hload
    exact absurd hload (by simp [userFailure])
  | true =>
    rw [loadDirectory_of_isDirectory hkeyed hsettled hdir] at hload
    dsimp only at hload
    split at hload
    · exact absurd hload (by simp)
    · exact (Except.ok.inj hload).symm

/-- A load by name passes the verdict on, and words a rejection for the user. -/
theorem loadClass_eq_bind (loader : Loader) (name : String) :
    (loader.loadClass name).1 = loader.validator.validate loader.loaded name >>= fun
      | .accepted d => .ok d
      | .rejected reason => .error (.user loader.checker.name (refusal name reason)) := by
  unfold loadClass
  cases loader.validator.validate loader.loaded name with
  | error failure => rfl
  | ok verdict =>
    cases verdict with
    | accepted d => rfl
    | rejected reason => rfl

/-- **What is accepted from a directory**: the names that its files give, as far as they pass every step of a
    validation. -/
theorem mem_names_of_loadDirectory_iff {set : QualifierSet} {name : String}
    (hkeyed : loader.validator.resolve.Keyed)
    (hsettled : loader.validator.Settled loader.loaded)
    (hload : (loader.loadDirectory files path).1 = .ok set) :
    name ∈ set.names ↔ name ∈ loader.candidatesBelow files path ∧
      ∃ d, loader.validator.Qualifies name d := by
  rw [eq_of_loadDirectory_eq_ok hkeyed hsettled hload, QualifierSet.mem_names_insertAll,
    Validator.mem_names_accepted_iff hkeyed]
  exact or_iff_left List.not_mem_nil

end Loader

/-! ## Loads without the bundled set -/

section

variable {setup : LoaderSetup} {fs : FileSystem} {loader : Loader}

/-- **The bundled set is unobservable.** That its members are not synthesized again changes no verdict:
    each of them has passed every step for its own name. So a loader loads from every directory and by
    every name what it would load if nothing were bundled. -/
theorem LoaderSetup.bundled_unobservable {registry : Registry}
    (hresolver : setup.resolver = some registry.resolve)
    (hbuild : (setup.build fs).1 = .ok loader) :
    (∀ name, loader.validator.validate loader.loaded name =
      loader.validator.validate .empty name) ∧
    (∀ name, loader.loadClass name = loader.withoutBundled.loadClass name) ∧
    ∀ files path, loader.loadDirectory files path =
      loader.withoutBundled.loadDirectory files path := by
  have hbuilds := builds_of_build hresolver hbuild
  have hkeyed := hbuilds.keyed registry.resolve_keyed
  have hsettled := hbuilds.settled registry.resolve_keyed
  have hverdict : ∀ name, loader.validator.validate loader.loaded name =
      loader.validator.validate .empty name :=
    Validator.validate_eq_validate_empty hkeyed hsettled
  refine ⟨hverdict, fun name => ?_, fun files path => ?_⟩
  · unfold Loader.loadClass
    rw [hverdict name]
    rfl
  · cases hdir : files.isDirectory path with
    | false =>
      rw [Loader.loadDirectory_of_not_isDirectory hdir, Loader.loadDirectory_of_not_isDirectory hdir]
      rfl
    | true =>
      -- both passes have the outcome of `acceptAll_eq`, in which what is bundled does not occur
      have hempty : loader.withoutBundled.validator.Settled loader.withoutBundled.loaded :=
        Validator.settled_empty
      have hplain : loader.withoutBundled.loadDirectory files path = _ :=
        Loader.loadDirectory_of_isDirectory hkeyed hempty hdir
      rw [Loader.loadDirectory_of_isDirectory hkeyed hsettled hdir, hplain]
      rfl

theorem LoaderSetup.bundled_unobservable_oneQualifier :
    ∃ loader, ((oneQualifier "qual.C" (by decide)).build (oneFile "C.class" (by decide))).1 =
        .ok loader ∧
      loader.loaded.names = ["qual.C"] ∧
      loader.validator.validate loader.loaded "qual.C" =
        loader.validator.validate .empty "qual.C" ∧
      loader.loadClass "qual.C" = loader.withoutBundled.loadClass "qual.C" := by
  have hbuilds : ∃ loader, ((oneQualifier "qual.C" (by decide)).build
      (oneFile "C.class" (by decide))).1 = .ok loader ∧ loader.loaded.names = ["qual.C"] :=
    ⟨_, rfl, rfl⟩
  obtain ⟨loader, hbuild, hnames⟩ := hbuilds
  obtain ⟨hverdict, hclass, -⟩ := bundled_unobservable rfl hbuild
  exact ⟨loader, hbuild, hnames, hverdict "qual.C", hclass "qual.C"⟩

/-! ## Loads from a directory -/

/-- **Loading from a directory is exact, and all or nothing.** What is no directory is the user's failure.
    From a directory a loader that skips failed syntheses always loads a set; one that is to abort fails
    with the first candidate of the right form that cannot be synthesized, and loads a set exactly if
    there is none. The names of a loaded set are the candidates that pass every step, in the order in
    which they first come and each once, with the registry's own descriptors; a directory with other
    candidates that do not pass, wherever they come, gives the same set. -/
theorem LoaderSetup.loadDirectory_exact {registry : Registry}
    (hresolver : setup.resolver = some registry.resolve)
    (hbuild : (setup.build fs).1 = .ok loader) (files : FileSystem) (path : String) :
    (files.isDirectory path = false →
      (loader.loadDirectory files path).1 = .error (.user loader.checker.name
        ("qualifier directory " ++ path ++ " does not exist or is not a directory"))) ∧
    (files.isDirectory path = true → loader.config.failurePolicy = .skip →
      ∃ set, (loader.loadDirectory files path).1 = .ok set) ∧
    (files.isDirectory path = true → loader.config.failurePolicy = .abort →
      ((∃ set, (loader.loadDirectory files path).1 = .ok set) ↔
        ∀ name ∈ loader.candidatesBelow files path, ∀ cause,
          ¬ loader.validator.FailsSynthesis name cause) ∧
      ∀ failure, (loader.loadDirectory files path).1 = .error failure ↔
        loader.validator.FirstFailure (loader.candidatesBelow files path) failure) ∧
    ∀ set, (loader.loadDirectory files path).1 = .ok set →
      (∀ name, name ∈ set.names ↔ name ∈ loader.candidatesBelow files path ∧
        ∃ d, loader.validator.Qualifies name d) ∧
      set.names = ((loader.candidatesBelow files path).filter loader.validator.accepts).eraseDups ∧
      (∀ d ∈ set.members, registry.resolve d.name = some d) ∧
      ∀ others otherPath other, (loader.loadDirectory others otherPath).1 = .ok other →
        (loader.candidatesBelow others otherPath).filter loader.validator.accepts =
          (loader.candidatesBelow files path).filter loader.validator.accepts →
        other = set := by
  have hbuilds := builds_of_build hresolver hbuild
  have hkeyed := hbuilds.keyed registry.resolve_keyed
  have hsettled := hbuilds.settled registry.resolve_keyed
  refine ⟨fun hdir => ?_, fun hdir hskip => ?_, fun hdir habort => ?_, fun set hset => ?_⟩
  · rw [Loader.loadDirectory_of_not_isDirectory hdir]
    rfl
  · have hnone : (loader.candidatesBelow files path).findSome? loader.validator.abort? = none :=
      List.findSome?_eq_none_iff.mpr fun _ _ =>
        Validator.abort?_eq_none_of_skip (hbuilds.policy_eq.trans hskip)
    rw [Loader.loadDirectory_of_isDirectory hkeyed hsettled hdir, hnone]
    exact ⟨_, rfl⟩
  · have hpolicy := hbuilds.policy_eq.trans habort
    -- the pass fails with the first candidate that is to stop it, and loads a set if there is none
    rw [Loader.loadDirectory_of_isDirectory hkeyed hsettled hdir,
      ← Validator.findSome?_abort?_eq_none_iff hpolicy]
    simp only [← Validator.findSome?_abort?_eq_some_iff hpolicy]
    cases (loader.candidatesBelow files path).findSome? loader.validator.abort? with
    | none => simp
    | some stop => simp
  · have hmembers := Loader.eq_of_loadDirectory_eq_ok hkeyed hsettled hset
    refine ⟨fun name => ?_, ?_, fun d hd => ?_, fun others otherPath other hother hsame => ?_⟩
    · exact Loader.mem_names_of_loadDirectory_iff hkeyed hsettled hset
    · rw [hmembers, Validator.names_insertAll_accepted hkeyed]
    · rw [hmembers] at hd
      have hresolved := (Validator.settled_insertAll hkeyed Validator.settled_empty d hd).resolved
      rw [hbuilds.validator_eq] at hresolved
      exact hresolved
    · -- what is accepted is read off the qualifying candidates alone
      rw [Loader.eq_of_loadDirectory_eq_ok hkeyed hsettled hother, hmembers,
        Validator.filterMap_accepted?_eq, hsame, ← Validator.filterMap_accepted?_eq]

/-- A source tree with one file at its root. -/
def oneSource (fileName : String) (h : isEntryName fileName = true) : FileSystem where
  root := .directory [("src", .directory [(fileName, .file .empty)])]
  workingPlace := []
  wellFormed := by
    simp only [Node.WellFormed, EntriesWellFormed, h, List.not_mem_nil, false_implies,
      implies_true, and_true]
    decide

theorem LoaderSetup.loadDirectory_exact_oneSource :
    ∃ loader set, ((oneQualifier "B" (by decide)).build
        (oneSource "B.java" (by decide))).1 = .ok loader ∧
      loader.candidatesBelow (oneSource "B.java" (by decide)) "/src" = ["B"] ∧
      (loader.loadDirectory (oneSource "B.java" (by decide)) "/src").1 = .ok set ∧
      set.names = (["B"].filter loader.validator.accepts).eraseDups ∧
      ∀ d ∈ set.members, (Registry.single "B" (by decide)).resolve d.name = some d := by
  have hloads : ∃ loader, ((oneQualifier "B" (by decide)).build
        (oneSource "B.java" (by decide))).1 = .ok loader ∧
      loader.candidatesBelow (oneSource "B.java" (by decide)) "/src" = ["B"] ∧
      (loader.loadDirectory (oneSource "B.java" (by decide)) "/src").1.isOk = true :=
    ⟨_, rfl, by decide +kernel, by decide +kernel⟩
  obtain ⟨loader, hbuild, hcandidates, hok⟩ := hloads
  cases hload : (loader.loadDirectory (oneSource "B.java" (by decide)) "/src").1 with
  | error failure =>
    rw [hload] at hok
    exact absurd hok (by simp [Except.isOk, Except.toBool])
  | ok set =>
    obtain ⟨-, -, -, hexact⟩ :=
      loadDirectory_exact rfl hbuild (oneSource "B.java" (by decide)) "/src"
    obtain ⟨-, hnames, hregistered, -⟩ := hexact set hload
    rw [hcandidates] at hnames
    exact ⟨loader, set, hbuild, hcandidates, hload, hnames, hregistered⟩

end

end QualifierDiscovery
