import QualifierDiscovery.Proofs.CommandLine.CheckerOption
import QualifierDiscovery.Proofs.NamedQualifiers
import QualifierDiscovery.Proofs.Precedence

/-!
# `Proofs.CommandLine.Output` — a run prints all names or none

A command comes to its names through stages, and the failure of any of them is the failure of the whole;
only when all have succeeded is anything printed. Whatever way a name came in, it was
judged like every other: the accepted names are those of the candidates that pass every step
(`Accepts.exists_judges`). So the registry knows them and they are dotted names of identifiers. Such a name
has no line end in it, and what is printed is read back line by line.

## Contents
- **Stages.** `LoaderOptions.FailsToBuild` and `Command.FailsAt` — where a command can fail;
  `Command.Accepts` — the names that it accepts; `accepts_or_failsAt`.
- **Names.** `Loader.Judges` — what is judged for a task, in order; `Accepts.exists_judges`,
  `Accepts.isQualified`, `Accepts.nodup`.
- **Output.** `Outcome.standardOutput`; `runArguments_all_or_nothing`.
-/

namespace QualifierDiscovery

/-! ## Stages -/

/-- A build fails if the setup is not right, or else if the pass over the bundled candidates does. -/
theorem LoaderSetup.build_eq_error_iff {setup : LoaderSetup} {fs : FileSystem} {failure : LoadError} :
    (setup.build fs).1 = .error failure ↔ setup.check = .error failure ∨
      ∃ resolver package, setup.check = .ok (resolver, package) ∧
        loadBundled fs setup.config.layout package (setup.location fs package)
          (setup.validatorFor resolver) = .error failure := by
  cases hcheck : setup.check with
  | error stop =>
    unfold build
    rw [hcheck]
    simp
  | ok checked =>
    obtain ⟨resolver, package⟩ := checked
    rw [build_eq hcheck]
    cases hpass : loadBundled fs setup.config.layout package (setup.location fs package)
        (setup.validatorFor resolver) with
    | error stop => simp [Except.map, hpass]
    | ok set => simp [Except.map, hpass]

namespace LoaderOptions

variable {options : LoaderOptions} {fs : FileSystem} {environment : Sources} {failure : LoadError}
  {setup : LoaderSetup}

/-- The setup that is made of what has been read. -/
inductive Prepares (options : LoaderOptions) (fs : FileSystem) (environment : Sources) :
    LoaderSetup → Prop
  | read {config : Config} {registry : Registry} (hconfig : options.config fs = .ok config)
    (hregistry : Registry.load fs options.manifests = .ok registry) :
    Prepares options fs environment (options.setup config registry (options.collect environment).1)

/-- The stages at which no loader can be built: the configuration or a manifest cannot be read, the
    configuration is faulty or there is no package, or the pass over the bundled candidates is
    stopped. -/
inductive FailsToBuild (options : LoaderOptions) (fs : FileSystem) (environment : Sources) :
    LoadError → Prop
  | config {failure : LoadError} (hconfig : options.config fs = .error failure) :
    FailsToBuild options fs environment failure
  | manifests {config : Config} {failure : LoadError} (hconfig : options.config fs = .ok config)
    (hregistry : Registry.load fs options.manifests = .error failure) :
    FailsToBuild options fs environment failure
  | package {setup : LoaderSetup} {failure : LoadError}
    (hsetup : options.Prepares fs environment setup) (hcheck : setup.check = .error failure) :
    FailsToBuild options fs environment failure
  | bundled {setup : LoaderSetup} {resolver : Resolver} {package : Package} {failure : LoadError}
    (hsetup : options.Prepares fs environment setup)
    (hcheck : setup.check = .ok (resolver, package))
    (hpass : LoaderSetup.loadBundled fs setup.config.layout package (setup.location fs package)
      (setup.validatorFor resolver) = .error failure) : FailsToBuild options fs environment failure

theorem build_of_prepares (h : options.Prepares fs environment setup) :
    (options.build fs environment).1 = (setup.build fs).1 := by
  obtain ⟨hconfig, hregistry⟩ := h
  apply build_eq
  unfold read
  rw [hconfig, hregistry]
  rfl

/-- The setup works with a registry. -/
theorem Prepares.exists_resolver (h : options.Prepares fs environment setup) :
    ∃ registry : Registry, setup.resolver = some registry.resolve := by
  obtain ⟨-, -⟩ := h
  exact ⟨_, rfl⟩

theorem build_of_config_eq_error (hconfig : options.config fs = .error failure) :
    (options.build fs environment).1 = .error failure := by
  unfold build read
  rw [hconfig]
  rfl

theorem build_of_load_eq_error {config : Config} (hconfig : options.config fs = .ok config)
    (hregistry : Registry.load fs options.manifests = .error failure) :
    (options.build fs environment).1 = .error failure := by
  unfold build read
  rw [hconfig, hregistry]
  rfl

/-- What is read makes a setup, or one of the readings fails. -/
theorem prepares_or_failsToBuild (options : LoaderOptions) (fs : FileSystem) (environment : Sources) :
    (∃ setup, options.Prepares fs environment setup) ∨
      ∃ failure, options.FailsToBuild fs environment failure ∧
        (options.build fs environment).1 = .error failure := by
  cases hconfig : options.config fs with
  | error failure => exact Or.inr ⟨failure, .config hconfig, build_of_config_eq_error hconfig⟩
  | ok config =>
    cases hregistry : Registry.load fs options.manifests with
    | error failure =>
      exact Or.inr ⟨failure, .manifests hconfig hregistry, build_of_load_eq_error hconfig hregistry⟩
    | ok registry => exact Or.inl ⟨_, .read hconfig hregistry⟩

/-- **No loader is built exactly if one of the stages fails.** -/
theorem build_eq_error_iff :
    (options.build fs environment).1 = .error failure ↔
      options.FailsToBuild fs environment failure := by
  constructor
  · intro hbuild
    rcases options.prepares_or_failsToBuild fs environment with ⟨setup, hsetup⟩ | ⟨stop, hfails, hstop⟩
    · rw [build_of_prepares hsetup] at hbuild
      rcases LoaderSetup.build_eq_error_iff.mp hbuild with hcheck | ⟨_, _, hcheck, hpass⟩
      · exact .package hsetup hcheck
      · exact .bundled hsetup hcheck hpass
    · obtain rfl : stop = failure := Except.error.inj (hstop.symm.trans hbuild)
      exact hfails
  · intro hfails
    cases hfails with
    | config hconfig => exact build_of_config_eq_error hconfig
    | manifests hconfig hregistry => exact build_of_load_eq_error hconfig hregistry
    | package hsetup hcheck =>
      rw [build_of_prepares hsetup]
      exact LoaderSetup.build_eq_error_iff.mpr (Or.inl hcheck)
    | bundled hsetup hcheck hpass =>
      rw [build_of_prepares hsetup]
      exact LoaderSetup.build_eq_error_iff.mpr (Or.inr ⟨_, _, hcheck, hpass⟩)

/-- A loader that is built comes of a setup that works with a registry. -/
theorem exists_setup_of_build {loader : Loader}
    (hbuild : (options.build fs environment).1 = .ok loader) :
    ∃ (setup : LoaderSetup) (registry : Registry), setup.resolver = some registry.resolve ∧
      (setup.build fs).1 = .ok loader := by
  rcases options.prepares_or_failsToBuild fs environment with ⟨setup, hsetup⟩ | ⟨stop, -, hstop⟩
  · obtain ⟨registry, hresolver⟩ := hsetup.exists_resolver
    exact ⟨setup, registry, hresolver, (build_of_prepares hsetup).symm.trans hbuild⟩
  · exact absurd (hstop.symm.trans hbuild) (by simp)

end LoaderOptions

/-- What a loader judges for a task, in the order in which it does. -/
inductive Loader.Judges (loader : Loader) (fs : FileSystem) : Task → List String → Prop
  | bundled {candidates : List String}
    (hcandidates : bundledNames fs loader.config.layout loader.package loader.location =
      .ok candidates) : Judges loader fs .bundled (candidates.map loader.package.qualify)
  | directory (path : String) :
    Judges loader fs (.externalDirectory path) (loader.candidatesBelow fs path)
  | named (name : String) : Judges loader fs (.externalClass name) [name]

namespace Command

variable {command : Command} {env : Variables} {fs : FileSystem} {names : List String}
  {failure : LoadError}

/-- What building the loader of a command comes to. -/
def built (command : Command) (env : Variables) (fs : FileSystem) : Except LoadError Loader :=
  (command.options.loaderOptions.build fs (env.sources fs)).1

/-- The names that a command accepts, in the order in which it does. -/
inductive Accepts (command : Command) (env : Variables) (fs : FileSystem) : List String → Prop
  | bundled {loader : Loader} (htask : command.task = .bundled)
    (hbuilt : command.built env fs = .ok loader) : Accepts command env fs loader.loaded.names
  | directory {path : String} {loader : Loader} {set : QualifierSet}
    (htask : command.task = .externalDirectory path) (hbuilt : command.built env fs = .ok loader)
    (hload : (loader.loadDirectory fs path).1 = .ok set) : Accepts command env fs set.names
  | named {name : String} {loader : Loader} {d : ClassDescriptor}
    (htask : command.task = .externalClass name) (hbuilt : command.built env fs = .ok loader)
    (hload : (loader.loadClass name).1 = .ok d) : Accepts command env fs [d.name]

/-- The stages at which a command can fail: its loader cannot be built, or it cannot load what the user
    names. -/
inductive FailsAt (command : Command) (env : Variables) (fs : FileSystem) : LoadError → Prop
  | building {failure : LoadError}
    (hbuild : command.options.loaderOptions.FailsToBuild fs (env.sources fs) failure) :
    FailsAt command env fs failure
  | directory {path : String} {loader : Loader} {failure : LoadError}
    (htask : command.task = .externalDirectory path) (hbuilt : command.built env fs = .ok loader)
    (hload : (loader.loadDirectory fs path).1 = .error failure) : FailsAt command env fs failure
  | named {name : String} {loader : Loader} {failure : LoadError}
    (htask : command.task = .externalClass name) (hbuilt : command.built env fs = .ok loader)
    (hload : (loader.loadClass name).1 = .error failure) : FailsAt command env fs failure

theorem load_of_built {loader : Loader} (hbuilt : command.built env fs = .ok loader) :
    command.load env fs = loader.perform fs command.task := by
  rw [load_eq_bind]
  show command.built env fs >>= _ = _
  rw [hbuilt]
  rfl

theorem load_of_not_built (hbuilt : command.built env fs = .error failure) :
    command.load env fs = .error failure := by
  rw [load_eq_bind]
  show command.built env fs >>= _ = _
  rw [hbuilt]
  rfl

/-- **A command comes to names or fails**: the stages leave no third way. -/
theorem accepts_or_failsAt (command : Command) (env : Variables) (fs : FileSystem) :
    (∃ names, command.Accepts env fs names) ∨ ∃ failure, command.FailsAt env fs failure := by
  cases hbuilt : command.built env fs with
  | error failure => exact Or.inr ⟨failure, .building (LoaderOptions.build_eq_error_iff.mp hbuilt)⟩
  | ok loader =>
    cases htask : command.task with
    | bundled => exact Or.inl ⟨_, .bundled htask hbuilt⟩
    | externalDirectory path =>
      cases hload : (loader.loadDirectory fs path).1 with
      | error failure => exact Or.inr ⟨failure, .directory htask hbuilt hload⟩
      | ok set => exact Or.inl ⟨set.names, .directory htask hbuilt hload⟩
    | externalClass name =>
      cases hload : (loader.loadClass name).1 with
      | error failure => exact Or.inr ⟨failure, .named htask hbuilt hload⟩
      | ok d => exact Or.inl ⟨[d.name], .named htask hbuilt hload⟩

theorem Accepts.load_eq (h : command.Accepts env fs names) : command.load env fs = .ok names := by
  cases h with
  | bundled htask hbuilt =>
    rw [load_of_built hbuilt, htask]
    rfl
  | directory htask hbuilt hload =>
    rw [load_of_built hbuilt, htask, Loader.perform, hload]
    rfl
  | named htask hbuilt hload =>
    rw [load_of_built hbuilt, htask, Loader.perform, hload]
    rfl

theorem FailsAt.load_eq (h : command.FailsAt env fs failure) :
    command.load env fs = .error failure := by
  cases h with
  | building hbuild => exact load_of_not_built (LoaderOptions.build_eq_error_iff.mpr hbuild)
  | directory htask hbuilt hload =>
    rw [load_of_built hbuilt, htask, Loader.perform, hload]
    rfl
  | named htask hbuilt hload =>
    rw [load_of_built hbuilt, htask, Loader.perform, hload]
    rfl

/-! ## Names -/

/-- A command's loader is built over a registry. -/
theorem exists_registry_of_built {loader : Loader} (hbuilt : command.built env fs = .ok loader) :
    ∃ (setup : LoaderSetup) (registry : Registry), setup.Builds fs registry.resolve loader := by
  obtain ⟨setup, registry, hresolver, hbuild⟩ := LoaderOptions.exists_setup_of_build hbuilt
  exact ⟨setup, registry, LoaderSetup.builds_of_build hresolver hbuild⟩

/-- **The accepted names** are the candidates that pass every step, in the order in which they first come
    and each once. -/
theorem Accepts.exists_judges (h : command.Accepts env fs names) :
    ∃ loader candidates, command.built env fs = .ok loader ∧
      loader.Judges fs command.task candidates ∧
      names = (candidates.filter loader.validator.accepts).eraseDups := by
  cases h with
  | @bundled loader htask hbuilt =>
    obtain ⟨setup, registry, hbuilds⟩ := exists_registry_of_built hbuilt
    obtain ⟨candidates, hcandidates⟩ := hbuilds.exists_candidates
    rw [htask]
    refine ⟨loader, _, hbuilt, .bundled (hbuilds.config_eq.symm ▸ hcandidates), ?_⟩
    -- the bundled set is what one pass over the candidates has accepted
    rw [hbuilds.loaded_eq_insertAll registry.resolve_keyed hcandidates]
    exact Validator.names_insertAll_accepted (hbuilds.keyed registry.resolve_keyed) _
  | @directory path loader set htask hbuilt hload =>
    obtain ⟨setup, registry, hbuilds⟩ := exists_registry_of_built hbuilt
    have hkeyed := hbuilds.keyed registry.resolve_keyed
    rw [htask]
    refine ⟨loader, _, hbuilt, .directory path, ?_⟩
    rw [Loader.eq_of_loadDirectory_eq_ok hkeyed (hbuilds.settled registry.resolve_keyed) hload]
    exact Validator.names_insertAll_accepted hkeyed _
  | @named name loader d htask hbuilt hload =>
    obtain ⟨setup, registry, hbuilds⟩ := exists_registry_of_built hbuilt
    have hkeyed := hbuilds.keyed registry.resolve_keyed
    have hqualifies :=
      (Loader.loadClass_eq_ok_iff hkeyed (hbuilds.settled registry.resolve_keyed)).mp hload
    rw [htask]
    refine ⟨loader, _, hbuilt, .named name, ?_⟩
    -- the descriptor has the name that was asked for, and this is the only candidate
    rw [hkeyed name d hqualifies.resolved, List.filter_singleton,
      Validator.accepts_iff.mpr ⟨d, hqualifies⟩]
    exact (eraseDups_of_nodup (List.nodup_singleton name)).symm

/-- **An accepted name is a dotted name**, whatever way it came in: the registry has known it. -/
theorem Accepts.isQualified (h : command.Accepts env fs names) :
    ∀ name ∈ names, Name.isQualified name = true := by
  obtain ⟨loader, candidates, hbuilt, -, rfl⟩ := h.exists_judges
  obtain ⟨setup, registry, hbuilds⟩ := exists_registry_of_built hbuilt
  intro name hname
  -- a candidate that passes every step is known to the registry under its name
  obtain ⟨-, haccepts⟩ := List.mem_filter.mp (List.mem_eraseDups.mp hname)
  obtain ⟨d, hqualifies⟩ := Validator.accepts_iff.mp haccepts
  have hresolved := hqualifies.resolved
  rw [hbuilds.validator_eq] at hresolved
  exact Registry.isQualified_of_resolve hresolved

theorem Accepts.nodup (h : command.Accepts env fs names) : names.Nodup := by
  cases h with
  | @bundled loader _ _ => exact loader.loaded.distinct
  | @directory _ _ set _ _ _ => exact set.distinct
  | named => exact List.nodup_singleton _

end Command

/-! ## Output -/

/-- What a run prints: each name with a line end behind it. -/
def Outcome.standardOutput (outcome : Outcome) : String :=
  String.ofList (outcome.output.flatMap fun line => line.toList ++ ['\n'])

/-- A dotted name has no characters but dots and those of identifiers. -/
theorem Name.notMem_of_isQualified {name : String} {c : Char} (h : isQualified name = true)
    (hdot : c ≠ '.') (hc : continuesIdentifier c = false) : c ∉ name.toList := by
  intro hmem
  obtain ⟨segment, hsegment, hin⟩ := Text.exists_mem_split_of_mem hmem hdot
  have hidentifier := List.all_eq_true.mp h segment hsegment
  exact notMem_of_isIdentifier hidentifier hc hin

/-- Such names are read back from what a run prints. -/
theorem Outcome.lines_standardOutput {outcome : Outcome}
    (h : ∀ name ∈ outcome.output, Name.isQualified name = true) :
    Text.lines outcome.standardOutput = outcome.output := by
  apply Text.lines_flatMap
  intro name hname
  constructor
  · exact Name.notMem_of_isQualified (h name hname) (by decide) (by decide)
  · exact Name.notMem_of_isQualified (h name hname) (by decide) (by decide)

theorem Command.Accepts.run_eq {command : Command} {env : Variables} {fs : FileSystem}
    {names : List String} (h : command.Accepts env (prepareLogs env fs).1 names) :
    command.run env fs = ⟨0, names, (prepareLogs env fs).2⟩ := by
  unfold run
  dsimp only
  rw [h.load_eq]

theorem Command.FailsAt.run_eq {command : Command} {env : Variables} {fs : FileSystem}
    {failure : LoadError} (h : command.FailsAt env (prepareLogs env fs).1 failure) :
    command.run env fs = ⟨1, [], (prepareLogs env fs).2 ++ ["Error: " ++ failure.message]⟩ := by
  unfold run
  dsimp only
  rw [h.load_eq]

/-- **A run prints all names or none.** A command line that is well formed gives a run, and either the
    command accepts names or one of its stages fails. If it accepts names, the status is zero and what is
    printed, read line by line, is these names: of what the loader judges those that pass every step, in
    the order in which they first come, each once and each a dotted name. If a stage fails, whichever it
    is, the status is not zero and nothing is printed. -/
theorem runArguments_all_or_nothing {arguments : List String} {command : Command}
    (hparse : Command.parse arguments = .ok command) (env : Variables) (fs : FileSystem) :
    ∃ outcome, runArguments arguments env fs = .ok outcome ∧
      ((∃ names, command.Accepts env (prepareLogs env fs).1 names) ∨
        ∃ failure, command.FailsAt env (prepareLogs env fs).1 failure) ∧
      (∀ names, command.Accepts env (prepareLogs env fs).1 names →
        outcome.exitStatus = 0 ∧ outcome.output = names ∧
        Text.lines outcome.standardOutput = names ∧
        names.Nodup ∧ (∀ name ∈ names, Name.isQualified name = true) ∧
        ∃ loader candidates, command.built env (prepareLogs env fs).1 = .ok loader ∧
          loader.Judges (prepareLogs env fs).1 command.task candidates ∧
          names = (candidates.filter loader.validator.accepts).eraseDups) ∧
      ∀ failure, command.FailsAt env (prepareLogs env fs).1 failure →
        outcome.exitStatus ≠ 0 ∧ outcome.output = [] ∧ outcome.standardOutput = "" := by
  have hrun : runArguments arguments env fs = .ok (command.run env fs) := by
    unfold runArguments
    rw [hparse]
    rfl
  refine ⟨command.run env fs, hrun, command.accepts_or_failsAt env _, ?_, ?_⟩
  · intro names haccepts
    have hprinted : (command.run env fs).output = names := by rw [haccepts.run_eq]
    have hlines : Text.lines (command.run env fs).standardOutput = names := by
      rw [← hprinted]
      apply Outcome.lines_standardOutput
      rw [hprinted]
      exact haccepts.isQualified
    have hstatus : (command.run env fs).exitStatus = 0 := by rw [haccepts.run_eq]
    exact ⟨hstatus, hprinted, hlines, haccepts.nodup, haccepts.isQualified, haccepts.exists_judges⟩
  · intro failure hfails
    rw [hfails.run_eq]
    exact ⟨Nat.one_ne_zero, rfl, rfl⟩

/-- The one bundled qualifier is printed, and nothing else. -/
theorem runArguments_all_or_nothing_demo :
    ∃ command names, Command.parse (demoArguments "C") = .ok command ∧
      command.Accepts ⟨none, none, none, none⟩
        (prepareLogs ⟨none, none, none, none⟩ demoFiles).1 names ∧
      names = ["demo.qual.A"] ∧ Text.lines "demo.qual.A\n" = names := by
  have hlisted : runArguments (demoArguments "C") ⟨none, none, none, none⟩ demoFiles =
      .ok ⟨0, ["demo.qual.A"], []⟩ := by
    decide +kernel
  cases hparse : Command.parse (demoArguments "C") with
  | error usage =>
    unfold runArguments at hlisted
    rw [hparse] at hlisted
    exact absurd hlisted (by simp [bind, Except.bind])
  | ok command =>
    obtain ⟨outcome, hrun, hends, haccepted, hfailed⟩ :=
      runArguments_all_or_nothing hparse ⟨none, none, none, none⟩ demoFiles
    obtain rfl : outcome = ⟨0, ["demo.qual.A"], []⟩ := Except.ok.inj (hrun.symm.trans hlisted)
    rcases hends with ⟨names, haccepts⟩ | ⟨failure, hfails⟩
    · obtain ⟨-, houtput, hlines, -⟩ := haccepted names haccepts
      exact ⟨command, names, rfl, haccepts, houtput.symm, hlines⟩
    · exact absurd rfl (hfailed failure hfails).1

end QualifierDiscovery
