import QualifierDiscovery.Loader
import QualifierDiscovery.Proofs.Locating
import QualifierDiscovery.Proofs.Names
import QualifierDiscovery.Proofs.Registry

/-!
# `Proofs.BundledLoading` — what a built loader holds

Building a loader lists the candidates where the package is found and makes one pass over their qualified
names. The pass has the outcome of `Validator.acceptAll_eq`, and since the candidates come in increasing
order, what is accepted stands in that order too. Only a directory that refuses to be listed keeps the pass
from being made (`candidates_or_closed`).

## Contents
- **Setups.** `check_eq_ok_iff` — when a setup can be built from; `build_eq` — the build is the loading
  of the bundled qualifiers at the location found.
- **The pass.** `loadBundled_eq`, and `members_of_loadBundled`: no candidate is dropped or moved.
- **Exactness.** `build_exact` — the qualifiers of a built loader, and when the build fails.
- **Packages.** `packageName?_of_build` — which members lie directly in the qualifier package.
-/

namespace QualifierDiscovery

/-! ## Setups -/

namespace LoaderSetup

variable {setup : LoaderSetup} {resolver : Resolver} {package : Package} {fs : FileSystem}
  {loader : Loader} {candidates : List String}

/-- A setup can be built from if its configuration is right, it has a resolver and the checker's
    namespace gives a package. -/
theorem check_eq_ok_iff :
    setup.check = .ok (resolver, package) ↔
      setup.config.fault? = none ∧ setup.resolver = some resolver ∧
        Package.forNamespace? setup.checker.namespaceName setup.config.packageSuffix =
          some package := by
  unfold check Config.check
  cases hfault : setup.config.fault? with
  | some fault => simp [bind, Except.bind]
  | none =>
    cases hresolver : setup.resolver with
    | none => simp [bind, Except.bind]
    | some given =>
      cases hpackage : Package.forNamespace? setup.checker.namespaceName
          setup.config.packageSuffix with
      | none => simp [bind, Except.bind, hpackage]
      | some found => simp [bind, Except.bind, hpackage]

/-- The location at which a setup looks for the qualifiers of a package. -/
def location (setup : LoaderSetup) (fs : FileSystem) (package : Package) : Option Location :=
  (locate fs setup.config.layout package setup.searchPath).1

/-- The candidates at that location can be listed, unless it is a directory that refuses. -/
theorem candidates_or_closed (setup : LoaderSetup) (fs : FileSystem) (package : Package) :
    (∃ candidates, bundledNames fs setup.config.layout package (setup.location fs package) =
      .ok candidates) ∨
      ∃ location, setup.location fs package = some location ∧ location.Closed fs :=
  bundledNames_locate fs setup.config.layout package setup.searchPath

theorem build_eq (hcheck : setup.check = .ok (resolver, package)) (fs : FileSystem) :
    (setup.build fs).1 =
      (loadBundled fs setup.config.layout package (setup.location fs package)
        (setup.validatorFor resolver)).map fun loaded =>
          ⟨setup.checker, setup.config, package, setup.location fs package,
            setup.validatorFor resolver, loaded⟩ := by
  unfold build location
  rw [hcheck]
  dsimp only
  split <;> next h => rw [h]; rfl

/-- What a built loader has taken over from its setup. -/
structure Builds (setup : LoaderSetup) (fs : FileSystem) (resolver : Resolver) (loader : Loader) :
    Prop where
  check_eq : setup.check = .ok (resolver, loader.package)
  config_eq : loader.config = setup.config
  location_eq : loader.location = setup.location fs loader.package
  validator_eq : loader.validator = setup.validatorFor resolver
  loaded_eq : loadBundled fs setup.config.layout loader.package loader.location loader.validator =
    .ok loader.loaded

theorem Builds.keyed (h : setup.Builds fs resolver loader) (hkeyed : resolver.Keyed) :
    loader.validator.resolve.Keyed := by
  rw [h.validator_eq]
  exact hkeyed

theorem Builds.policy_eq (h : setup.Builds fs resolver loader) :
    loader.validator.policy = loader.config.failurePolicy := by
  rw [h.validator_eq, h.config_eq]
  rfl

/-- Where something is loaded, the candidates have been listed. -/
theorem exists_candidates_of_loadBundled {v : Validator} {layout : Layout} {location : Option Location}
    {set : QualifierSet} (h : loadBundled fs layout package location v = .ok set) :
    ∃ candidates, bundledNames fs layout package location = .ok candidates := by
  unfold loadBundled at h
  cases hcandidates : bundledNames fs layout package location with
  | error failure =>
    rw [hcandidates] at h
    exact absurd h (by simp [bind, Except.bind])
  | ok candidates => exact ⟨candidates, rfl⟩

theorem Builds.exists_candidates (h : setup.Builds fs resolver loader) :
    ∃ candidates, bundledNames fs setup.config.layout loader.package loader.location = .ok candidates :=
  exists_candidates_of_loadBundled h.loaded_eq

/-- What a build that succeeds has come by: a setup that is right, and the qualifiers loaded. -/
theorem exists_of_build (hbuild : (setup.build fs).1 = .ok loader) :
    ∃ resolver package set, setup.check = .ok (resolver, package) ∧
      loadBundled fs setup.config.layout package (setup.location fs package)
        (setup.validatorFor resolver) = .ok set ∧
      loader = ⟨setup.checker, setup.config, package, setup.location fs package,
        setup.validatorFor resolver, set⟩ := by
  cases hcheck : setup.check with
  | error failure =>
    unfold build at hbuild
    rw [hcheck] at hbuild
    exact absurd hbuild (by simp)
  | ok parts =>
    obtain ⟨resolver, package⟩ := parts
    rw [build_eq hcheck] at hbuild
    cases hset : loadBundled fs setup.config.layout package (setup.location fs package)
        (setup.validatorFor resolver) with
    | error failure =>
      rw [hset] at hbuild
      exact absurd hbuild (by simp [Except.map])
    | ok set =>
      rw [hset] at hbuild
      exact ⟨resolver, package, set, rfl, hset, (Except.ok.inj hbuild).symm⟩

theorem builds_of_build (hresolver : setup.resolver = some resolver)
    (hbuild : (setup.build fs).1 = .ok loader) : setup.Builds fs resolver loader := by
  obtain ⟨given, package, set, hcheck, hset, rfl⟩ := exists_of_build hbuild
  obtain rfl : given = resolver :=
    Option.some.inj ((check_eq_ok_iff.mp hcheck).2.1.symm.trans hresolver)
  exact ⟨hcheck, rfl, rfl, rfl, hset⟩

/-! ## The pass over the candidates -/

/-- Loading is one pass over the candidates' qualified names, whose outcome does not depend on what has
    been accepted before. -/
theorem loadBundled_eq {v : Validator} {layout : Layout} {location : Option Location}
    (hkeyed : v.resolve.Keyed)
    (hcandidates : bundledNames fs layout package location = .ok candidates) :
    loadBundled fs layout package location v =
      match (candidates.map package.qualify).findSome? v.abort? with
      | some failure => .error failure
      | none =>
        .ok (QualifierSet.empty.insertAll
          ((candidates.map package.qualify).filterMap v.accepted?)) := by
  unfold loadBundled
  rw [hcandidates]
  exact Validator.acceptAll_eq hkeyed (fun _ hset => hset) _ Validator.settled_empty

theorem pairwise_qualify (package : Package) (h : candidates.Pairwise fun a b => a < b) :
    (candidates.map package.qualify).Pairwise fun a b => a < b :=
  List.pairwise_map.mpr (h.imp fun hlt => Text.append_lt_append_of_lt _ hlt)

theorem members_of_loadBundled {v : Validator} {layout : Layout} {location : Option Location}
    {set : QualifierSet} (hkeyed : v.resolve.Keyed)
    (hcandidates : bundledNames fs layout package location = .ok candidates)
    (hset : loadBundled fs layout package location v = .ok set) :
    set.members = (candidates.map package.qualify).filterMap v.accepted? := by
  rw [loadBundled_eq hkeyed hcandidates] at hset
  split at hset
  · exact absurd hset (by simp)
  · rw [← Except.ok.inj hset]
    exact Validator.members_insertAll_accepted hkeyed
      (pairwise_qualify package (increasing_bundledNames hcandidates))

/-- The members of a built loader are the accepted ones of the candidates, in their order. -/
theorem Builds.members_eq (h : setup.Builds fs resolver loader) (hkeyed : resolver.Keyed)
    (hcandidates : bundledNames fs setup.config.layout loader.package loader.location =
      .ok candidates) :
    loader.loaded.members =
      (candidates.map loader.package.qualify).filterMap (setup.validatorFor resolver).accepted? := by
  rw [← h.validator_eq]
  exact members_of_loadBundled (h.keyed hkeyed) hcandidates h.loaded_eq

/-- What a built loader holds is what one pass over the candidates accepts. -/
theorem Builds.loaded_eq_insertAll (h : setup.Builds fs resolver loader) (hkeyed : resolver.Keyed)
    (hcandidates : bundledNames fs setup.config.layout loader.package loader.location =
      .ok candidates) :
    loader.loaded = QualifierSet.empty.insertAll
      ((candidates.map loader.package.qualify).filterMap loader.validator.accepted?) := by
  have hloaded := h.loaded_eq
  rw [loadBundled_eq (h.keyed hkeyed) hcandidates] at hloaded
  split at hloaded
  · exact absurd hloaded (by simp)
  · exact (Except.ok.inj hloaded).symm

/-- The qualifiers of a built loader pass every step of its validation. -/
theorem Builds.settled (h : setup.Builds fs resolver loader) (hkeyed : resolver.Keyed) :
    loader.validator.Settled loader.loaded := by
  obtain ⟨candidates, hcandidates⟩ := h.exists_candidates
  rw [h.loaded_eq_insertAll hkeyed hcandidates]
  exact Validator.settled_insertAll (h.keyed hkeyed) Validator.settled_empty

/-- A build fails as its pass does, or succeeds. -/
theorem build_of_findSome?
    (hcheck : setup.check = .ok (resolver, package)) (hkeyed : resolver.Keyed)
    (hcandidates : bundledNames fs setup.config.layout package (setup.location fs package) =
      .ok candidates) :
    match (candidates.map package.qualify).findSome? (setup.validatorFor resolver).abort? with
    | some failure => (setup.build fs).1 = .error failure
    | none => ∃ loader, (setup.build fs).1 = .ok loader := by
  rw [build_eq hcheck, loadBundled_eq (v := setup.validatorFor resolver) hkeyed hcandidates]
  cases (candidates.map package.qualify).findSome? (setup.validatorFor resolver).abort? with
  | some failure => rfl
  | none => exact ⟨_, rfl⟩

/-- A build fails where the package is a directory that cannot be listed. -/
theorem build_of_closed {location : Location} (hcheck : setup.check = .ok (resolver, package))
    (hlocation : setup.location fs package = some location) (hclosed : location.Closed fs) :
    (setup.build fs).1 = .error (.file .permissionDenied) := by
  rw [build_eq hcheck, hlocation, loadBundled, hclosed.bundledNames_eq]
  rfl

/-! ## Exactness -/

theorem Builds.pairwise_names (h : setup.Builds fs resolver loader)
    (hkeyed : resolver.Keyed)
    (hcandidates : bundledNames fs setup.config.layout loader.package loader.location =
      .ok candidates) :
    loader.loaded.names.Pairwise fun a b => Text.utf8Bytes a < Text.utf8Bytes b := by
  have hsorted := pairwise_qualify loader.package (increasing_bundledNames hcandidates)
  rw [QualifierSet.names, h.members_eq hkeyed hcandidates, List.pairwise_map]
  apply (Validator.pairwise_accepted hkeyed hsorted).imp
  intro a b hlt
  exact Text.lt_iff_utf8Bytes_lt.mp hlt

theorem Builds.mem_names_iff {name : String}
    (h : setup.Builds fs resolver loader) (hkeyed : resolver.Keyed)
    (hcandidates : bundledNames fs setup.config.layout loader.package loader.location =
      .ok candidates) :
    name ∈ loader.loaded.names ↔ ∃ s ∈ candidates, name = loader.package.qualify s ∧
      ∃ d, (setup.validatorFor resolver).Qualifies name d := by
  have hnames := @Validator.mem_names_accepted_iff (setup.validatorFor resolver)
    (candidates.map loader.package.qualify) hkeyed name
  rw [QualifierSet.names, h.members_eq hkeyed hcandidates, hnames]
  constructor
  · rintro ⟨hname, hqualifies⟩
    obtain ⟨s, hs, rfl⟩ := List.mem_map.mp hname
    exact ⟨s, hs, rfl, hqualifies⟩
  · rintro ⟨s, hs, rfl, hqualifies⟩
    exact ⟨List.mem_map.mpr ⟨s, hs, rfl⟩, hqualifies⟩

/-- A member is the resolver's own descriptor of its name. -/
theorem Builds.resolve_member {d : ClassDescriptor}
    (h : setup.Builds fs resolver loader) (hkeyed : resolver.Keyed)
    (hd : d ∈ loader.loaded.members) : resolver d.name = some d := by
  have hresolved := (h.settled hkeyed d hd).resolved
  rw [h.validator_eq] at hresolved
  exact hresolved

theorem build_of_skip (hcheck : setup.check = .ok (resolver, package)) (hkeyed : resolver.Keyed)
    (hskip : setup.config.failurePolicy = .skip)
    (hcandidates : bundledNames fs setup.config.layout package (setup.location fs package) =
      .ok candidates) : ∃ loader, (setup.build fs).1 = .ok loader := by
  have houtcome := build_of_findSome? hcheck hkeyed hcandidates
  have hnone : (candidates.map package.qualify).findSome? (setup.validatorFor resolver).abort? =
      none :=
    List.findSome?_eq_none_iff.mpr fun _ _ => Validator.abort?_eq_none_of_skip hskip
  rw [hnone] at houtcome
  exact houtcome

/-- A build that is to abort succeeds exactly if no candidate fails synthesis. -/
theorem build_of_abort_iff (hcheck : setup.check = .ok (resolver, package))
    (hkeyed : resolver.Keyed) (habort : setup.config.failurePolicy = .abort)
    (hcandidates : bundledNames fs setup.config.layout package (setup.location fs package) =
      .ok candidates) :
    (∃ loader, (setup.build fs).1 = .ok loader) ↔ ∀ s ∈ candidates, ∀ cause,
      ¬ (setup.validatorFor resolver).FailsSynthesis (package.qualify s) cause := by
  have houtcome := build_of_findSome? hcheck hkeyed hcandidates
  have hnone : (candidates.map package.qualify).findSome?
      (setup.validatorFor resolver).abort? = none ↔ _ :=
    Validator.findSome?_abort?_eq_none_iff habort
  rw [List.forall_mem_map] at hnone
  rw [← hnone]
  cases hfirst : (candidates.map package.qualify).findSome?
      (setup.validatorFor resolver).abort? with
  | none =>
    rw [hfirst] at houtcome
    exact iff_of_true houtcome rfl
  | some stop =>
    rw [hfirst] at houtcome
    refine iff_of_false ?_ (by simp)
    rintro ⟨loader, hloader⟩
    exact absurd (houtcome.symm.trans hloader) (by simp)

/-- A build that fails reports the smallest candidate that fails synthesis. -/
theorem exists_first_of_build_error {failure : LoadError}
    (hcheck : setup.check = .ok (resolver, package)) (hkeyed : resolver.Keyed)
    (hcandidates : bundledNames fs setup.config.layout package (setup.location fs package) =
      .ok candidates)
    (hbuild : (setup.build fs).1 = .error failure) :
    ∃ s ∈ candidates, ∃ cause,
      (setup.validatorFor resolver).FailsSynthesis (package.qualify s) cause ∧
      failure = .synthesis (package.qualify s) cause ∧
      ∀ earlier ∈ candidates, earlier < s → ∀ cause,
        ¬ (setup.validatorFor resolver).FailsSynthesis (package.qualify earlier) cause := by
  have houtcome := build_of_findSome? hcheck hkeyed hcandidates
  have hsorted := increasing_bundledNames hcandidates
  cases hfirst : (candidates.map package.qualify).findSome?
      (setup.validatorFor resolver).abort? with
  | none =>
    rw [hfirst] at houtcome
    obtain ⟨loader, hloader⟩ := houtcome
    exact absurd (hbuild.symm.trans hloader) (by simp)
  | some stop =>
    rw [hfirst] at houtcome
    obtain ⟨name, hname, cause, hfails, hstop, hleast⟩ :=
      Validator.exists_first_of_findSome?_abort? (pairwise_qualify package hsorted) hfirst
    obtain ⟨s, hs, rfl⟩ := List.mem_map.mp hname
    rw [houtcome, Except.error.injEq] at hbuild
    refine ⟨s, hs, cause, hfails, hbuild ▸ hstop, ?_⟩
    intro earlier hearlier hlt
    exact hleast _ (List.mem_map.mpr ⟨earlier, hearlier, rfl⟩) (Text.append_lt_append_of_lt _ hlt)

/-- **Bundled discovery is exact.** Let `candidates` be what is listed where the package is found. A built
    loader holds, in strictly increasing order of their bytes, exactly the candidates that pass every
    step of a validation, each with the registry's own descriptor. A build that skips failed syntheses
    succeeds; one that is to abort succeeds exactly if no candidate of the right form fails synthesis,
    and otherwise reports the first one that does. The candidates are listed unless the package is found in
    a directory that refuses, and then that is what the build reports. -/
theorem build_exact {registry : Registry} (hconfig : setup.config.fault? = none)
    (hresolver : setup.resolver = some registry.resolve)
    (hpackage : Package.forNamespace? setup.checker.namespaceName setup.config.packageSuffix =
      some package) (fs : FileSystem) :
    (∃ candidates,
      bundledNames fs setup.config.layout package (setup.location fs package) = .ok candidates ∧
      (∀ loader, (setup.build fs).1 = .ok loader →
        (loader.loaded.names.Pairwise fun a b => Text.utf8Bytes a < Text.utf8Bytes b) ∧
        (∀ name, name ∈ loader.loaded.names ↔
          ∃ s ∈ candidates, name = package.qualify s ∧
            ∃ d, (setup.validatorFor registry.resolve).Qualifies name d) ∧
        ∀ d ∈ loader.loaded.members, registry.resolve d.name = some d) ∧
      (setup.config.failurePolicy = .skip → ∃ loader, (setup.build fs).1 = .ok loader) ∧
      (setup.config.failurePolicy = .abort →
        ((∃ loader, (setup.build fs).1 = .ok loader) ↔
          ∀ s ∈ candidates, ∀ cause,
            ¬ (setup.validatorFor registry.resolve).FailsSynthesis (package.qualify s) cause) ∧
        ∀ failure, (setup.build fs).1 = .error failure →
          ∃ s ∈ candidates, ∃ cause,
            (setup.validatorFor registry.resolve).FailsSynthesis (package.qualify s) cause ∧
            failure = .synthesis (package.qualify s) cause ∧
            ∀ earlier ∈ candidates, earlier < s → ∀ cause,
              ¬ (setup.validatorFor registry.resolve).FailsSynthesis (package.qualify earlier)
                cause)) ∨
    ∃ location, setup.location fs package = some location ∧ location.Closed fs ∧
      (setup.build fs).1 = .error (.file .permissionDenied) := by
  have hcheck := check_eq_ok_iff.mpr ⟨hconfig, hresolver, hpackage⟩
  have hkeyed := registry.resolve_keyed
  rcases setup.candidates_or_closed fs package with
    ⟨candidates, hcandidates⟩ | ⟨location, hlocation, hclosed⟩
  · refine Or.inl ⟨candidates, hcandidates, fun loader hbuild => ?_,
      fun hskip => build_of_skip hcheck hkeyed hskip hcandidates, fun habort => ?_⟩
    · have hbuilds := builds_of_build hresolver hbuild
      obtain rfl : loader.package = package :=
        (Prod.mk.inj (Except.ok.inj (hbuilds.check_eq.symm.trans hcheck))).2
      rw [← hbuilds.location_eq] at hcandidates
      exact ⟨hbuilds.pairwise_names hkeyed hcandidates,
        fun name => hbuilds.mem_names_iff hkeyed hcandidates,
        fun d hd => hbuilds.resolve_member hkeyed hd⟩
    · exact ⟨build_of_abort_iff hcheck hkeyed habort hcandidates,
        fun failure hbuild => exists_first_of_build_error hcheck hkeyed hcandidates hbuild⟩
  · exact Or.inr ⟨location, hlocation, hclosed, build_of_closed hcheck hlocation hclosed⟩

/-- A search path of one directory in which the package `qual` has one file. -/
def oneFile (fileName : String) (h : isEntryName fileName = true) : FileSystem where
  root := .directory [("cp", .directory [("qual", .directory [(fileName, .file .empty)])])]
  workingPlace := []
  wellFormed := by
    simp only [Node.WellFormed, EntriesWellFormed, h, List.not_mem_nil, false_implies,
      implies_true, and_true]
    decide

/-- The standard setup for the package `qual`, over a registry that knows one annotation type. -/
def oneQualifier (name : String) (h : Name.isQualified name = true) : LoaderSetup where
  checker := ⟨"Demo", ""⟩
  config := .standard
  searchPath := .ofList ["/cp"]
  resolver := some (Registry.single name h).resolve
  synthesizer := none
  support := .always

theorem build_exact_oneQualifier :
    ∃ candidates loader, bundledNames (oneFile "C.class" (by decide)) .java
        ⟨"qual", by decide⟩ ((oneQualifier "qual.C" (by decide)).location
          (oneFile "C.class" (by decide)) ⟨"qual", by decide⟩) = .ok candidates ∧
      ((oneQualifier "qual.C" (by decide)).build (oneFile "C.class" (by decide))).1 = .ok loader ∧
      loader.loaded.names = ["qual.C"] ∧
      (∃ s ∈ candidates, "qual.C" = Package.qualify ⟨"qual", by decide⟩ s) ∧
      ∀ d ∈ loader.loaded.members,
        (Registry.single "qual.C" (by decide)).resolve d.name = some d := by
  have hbuild : ∃ loader, ((oneQualifier "qual.C" (by decide)).build
      (oneFile "C.class" (by decide))).1 = .ok loader ∧ loader.loaded.names = ["qual.C"] := ⟨_, rfl, rfl⟩
  obtain ⟨loader, hbuild, hnames⟩ := hbuild
  rcases @build_exact (oneQualifier "qual.C" (by decide)) ⟨"qual", by decide⟩
      (.single "qual.C" (by decide)) (by decide) rfl (by decide) (oneFile "C.class" (by decide)) with
    ⟨candidates, hcandidates, hloaded, -⟩ | ⟨location, -, -, hfailure⟩
  · obtain ⟨-, hmembers, hown⟩ := hloaded loader hbuild
    obtain ⟨s, hs, hname, -⟩ := (hmembers "qual.C").mp (by rw [hnames]; exact List.mem_cons_self)
    exact ⟨candidates, loader, hcandidates, hbuild, hnames, ⟨s, hs, hname⟩, hown⟩
  · exact absurd (hbuild.symm.trans hfailure) (by simp)

/-! ## Packages of the members -/

/-- **A member lies directly in the package exactly if its candidate's name has no dot.** The file name of
    a compiled class is cut at its suffix only, so what is put behind the package can have dots of its
    own and name a class of a package below. -/
theorem packageName?_of_build {registry : Registry}
    (hresolver : setup.resolver = some registry.resolve)
    (hbuild : (setup.build fs).1 = .ok loader) :
    ∃ candidates,
      bundledNames fs setup.config.layout loader.package loader.location = .ok candidates ∧
      (∀ d ∈ loader.loaded.members, ∃ s ∈ candidates, d.name = loader.package.qualify s ∧
        (d.packageName? = some loader.package.dotted ↔ '.' ∉ s.toList)) ∧
      ((∀ d ∈ loader.loaded.members, d.packageName? = some loader.package.dotted) ↔
        ∀ s ∈ candidates, loader.package.qualify s ∈ loader.loaded.names → '.' ∉ s.toList) := by
  have hbuilds := builds_of_build hresolver hbuild
  have hkeyed := registry.resolve_keyed
  obtain ⟨candidates, hcandidates⟩ := hbuilds.exists_candidates
  have hmember : ∀ d ∈ loader.loaded.members, ∃ s ∈ candidates,
      d.name = loader.package.qualify s := by
    intro d hd
    rw [hbuilds.members_eq hkeyed hcandidates] at hd
    obtain ⟨q, hq, haccepted⟩ := List.mem_filterMap.mp hd
    obtain ⟨s, hs, rfl⟩ := List.mem_map.mp hq
    exact ⟨s, hs, Validator.name_of_accepted? hkeyed haccepted⟩
  have hpackage : ∀ (d : ClassDescriptor) (s : String), d.name = loader.package.qualify s →
      (d.packageName? = some loader.package.dotted ↔ '.' ∉ s.toList) := by
    intro d s hname
    rw [ClassDescriptor.packageName?, hname]
    exact Name.package?_append_eq_some_iff
  refine ⟨candidates, hcandidates, fun d hd => ?_, ?_⟩
  · obtain ⟨s, hs, hname⟩ := hmember d hd
    exact ⟨s, hs, hname, hpackage d s hname⟩
  · constructor
    · intro hall s hs hloaded
      obtain ⟨d, hd, hname⟩ := List.mem_map.mp hloaded
      exact (hpackage d s hname).mp (hall d hd)
    · intro hall d hd
      obtain ⟨s, hs, hname⟩ := hmember d hd
      exact (hpackage d s hname).mpr (hall s hs (hname ▸ List.mem_map.mpr ⟨d, hd, rfl⟩))

/-- A file whose name has a dot before the suffix lies in the package itself, and the class it is taken for
    belongs to a package below. -/
theorem build_loads_from_subpackage :
    ∃ loader, ((oneQualifier "qual.sub.C" (by decide)).build
        (oneFile "sub.C.class" (by decide))).1 = .ok loader ∧
      loader.package.dotted = "qual" ∧
      loader.loaded.members.map ClassDescriptor.packageName? = [some "qual.sub"] :=
  ⟨_, rfl, rfl, rfl⟩

theorem packageName?_of_build_oneQualifier :
    ∃ loader, ((oneQualifier "qual.C" (by decide)).build
        (oneFile "C.class" (by decide))).1 = .ok loader ∧
      ∀ d ∈ loader.loaded.members, ∃ s, d.name = loader.package.qualify s ∧
        (d.packageName? = some loader.package.dotted ↔ '.' ∉ s.toList) := by
  have hbuilds : ∃ loader, ((oneQualifier "qual.C" (by decide)).build
      (oneFile "C.class" (by decide))).1 = .ok loader := ⟨_, rfl⟩
  obtain ⟨loader, hbuild⟩ := hbuilds
  obtain ⟨candidates, -, hmembers, -⟩ := packageName?_of_build rfl hbuild
  refine ⟨loader, hbuild, fun d hd => ?_⟩
  obtain ⟨s, -, hname, hpackage⟩ := hmembers d hd
  exact ⟨s, hname, hpackage⟩

end LoaderSetup

end QualifierDiscovery
