import QualifierDiscovery.CommandLine.Run
import QualifierDiscovery.Proofs.ExternalLoading

/-!
# `Proofs.Checkers` — what a checker's name decides

A checker's type name is glued from a namespace and a name and cut again at its last dot. What comes out is
what went in exactly if the name has no dot; otherwise the name's own front part goes into the namespace.
The namespace decides which package is searched, the name only stands before the messages for the user.

## Contents
- **Type names.** `Checker.ofTypeName_append` — what becomes of a namespace and a name;
  `SharedOptions.ofTypeName_eq_iff` — when they come out again; `Checker.nameFor_ofTypeName_eq_iff` — when
  two names lead to the same package.
- **Loads under another name.** `build_renamed`, `loadDirectory_renamed` and `loadClass_renamed`.
- **Commands.** `Command.AlikeButChecker`, and what such commands load (`load_alike`) and print
  (`run_alike`).
-/

namespace QualifierDiscovery

/-! ## Type names -/

namespace Name

/-- A name with another one's package put behind it, if there is one. -/
def extend (before : String) : Option String → String
  | none => before
  | some package => before ++ "." ++ package

/-- Two texts with a dot between them are longer than each of them. -/
theorem append_dot_ne (before rest : String) :
    before ++ "." ++ rest ≠ before ∧ before ++ "." ++ rest ≠ rest := by
  have hlength : (before ++ "." ++ rest).length = before.length + 1 + rest.length := by
    simp only [String.length_append, show ".".length = 1 from rfl]
  constructor
  · intro h
    rw [h] at hlength
    omega
  · intro h
    rw [h] at hlength
    omega

theorem extend_inj {before : String} {package package' : Option String} :
    extend before package = extend before package' ↔ package = package' := by
  constructor
  · intro h
    cases package with
    | none =>
      cases package' with
      | none => rfl
      | some rest => exact absurd h.symm (append_dot_ne before rest).1
    | some rest =>
      cases package' with
      | none => exact absurd h (append_dot_ne before rest).1
      | some rest' => exact congrArg some ((String.append_right_inj _).mp h)
  · rintro rfl
    rfl

end Name

/-- A type name with a last part gives that part and what stands before it. -/
theorem Checker.ofTypeName_append_of_notMem (before : String) {last : String}
    (h : '.' ∉ last.toList) : Checker.ofTypeName (before ++ "." ++ last) = ⟨last, before⟩ := by
  have hlast : Name.segments last = [last] := Text.split_eq_singleton h
  have hsegments : Name.segments (before ++ "." ++ last) = Text.split '.' before ++ [last] := by
    rw [Name.segments_append, hlast]
    rfl
  unfold Checker.ofTypeName
  rw [hsegments, List.reverse_append]
  show (⟨last, Text.join '.' (Text.split '.' before).reverse.reverse⟩ : Checker) = _
  rw [List.reverse_reverse, Text.join_split]

/-- **What becomes of a namespace and a name.** The name goes into the message, and if it has dots, what
    stands before the last of them into the namespace. -/
theorem Checker.ofTypeName_append (before name : String) :
    Checker.ofTypeName (before ++ "." ++ name) =
      ⟨Name.simple name, Name.extend before (Name.package? name)⟩ := by
  cases hpackage : Name.package? name with
  | none =>
    have hdot := Name.package?_eq_none_iff.mp hpackage
    rw [ofTypeName_append_of_notMem before hdot, Name.simple_eq_self hdot]
    rfl
  | some package =>
    obtain ⟨last, hlast, rfl⟩ := Name.package?_eq_some_iff.mp hpackage
    have hsame : before ++ "." ++ (package ++ "." ++ last) = before ++ "." ++ package ++ "." ++ last := by
      simp only [String.append_assoc]
    rw [hsame, ofTypeName_append_of_notMem _ hlast, Name.simple_append package hlast]
    rfl

/-- With one suffix, two namespaces have one package only if they are the same. -/
theorem Package.nameFor_inj {before before' suffix : String} :
    Package.nameFor before suffix = Package.nameFor before' suffix ↔ before = before' := by
  unfold Package.nameFor
  dsimp only
  generalize Text.dropLeading '.' suffix = rest
  constructor
  · intro h
    -- without a namespace the suffix stands alone, which no namespace before it gives
    by_cases hempty : before = ""
    · by_cases hempty' : before' = ""
      · rw [hempty, hempty']
      · rw [if_pos (String.isEmpty_iff.mpr hempty), if_neg (by simpa using hempty')] at h
        exact absurd h.symm (Name.append_dot_ne before' rest).2
    · by_cases hempty' : before' = ""
      · rw [if_neg (by simpa using hempty), if_pos (String.isEmpty_iff.mpr hempty')] at h
        exact absurd h (Name.append_dot_ne before rest).2
      · rw [if_neg (by simpa using hempty), if_neg (by simpa using hempty')] at h
        exact (String.append_left_inj _).mp ((String.append_left_inj _).mp h)
  · rintro rfl
    rfl

/-- A command's checker is what its options say exactly if the name has no dot. -/
theorem SharedOptions.ofTypeName_eq_iff {options : SharedOptions} :
    Checker.ofTypeName options.loaderOptions.checker =
      ⟨options.checker, options.namespaceName⟩ ↔ '.' ∉ options.checker.toList := by
  have hchecker : Checker.ofTypeName options.loaderOptions.checker =
      ⟨Name.simple options.checker,
        Name.extend options.namespaceName (Name.package? options.checker)⟩ :=
    Checker.ofTypeName_append options.namespaceName options.checker
  rw [hchecker, Checker.mk.injEq, ← Name.package?_eq_none_iff]
  constructor
  · rintro ⟨-, hnamespace⟩
    exact Name.extend_inj.mp hnamespace
  · intro hnone
    refine ⟨Name.simple_eq_self (Name.package?_eq_none_iff.mp hnone), ?_⟩
    rw [hnone]
    rfl

/-- Two names lead to the same package exactly if the same stands before their last dots. -/
theorem Checker.nameFor_ofTypeName_eq_iff {before name name' suffix : String} :
    Package.nameFor (Checker.ofTypeName (before ++ "." ++ name')).namespaceName suffix =
        Package.nameFor (Checker.ofTypeName (before ++ "." ++ name)).namespaceName suffix ↔
      Name.package? name' = Name.package? name := by
  rw [ofTypeName_append, ofTypeName_append, Package.nameFor_inj]
  exact Name.extend_inj

/-! ## Loads under another name -/

/-- The results are the same, or failures of the user's with one message, before which the two names
    stand. -/
def SameButChecker {α : Type} (name name' : String) (result result' : Except LoadError α) : Prop :=
  result' = result ∨
    ∃ message, result = .error (.user name message) ∧ result' = .error (.user name' message)

theorem SameButChecker.bind {α β : Type} {name name' : String} {result result' : Except LoadError α}
    (h : SameButChecker name name' result result') (next : α → Except LoadError β) :
    SameButChecker name name' (result >>= next) (result' >>= next) := by
  rcases h with hsame | ⟨message, hresult, hresult'⟩
  · rw [hsame]
    exact Or.inl rfl
  · rw [hresult, hresult']
    exact Or.inr ⟨message, rfl, rfl⟩

/-- The loader under another name of its checker. -/
def Loader.renamed (loader : Loader) (name : String) : Loader :=
  { loader with checker := ⟨name, loader.checker.namespaceName⟩ }

/-- The setup under another name of its checker. -/
def LoaderSetup.renamed (setup : LoaderSetup) (name : String) : LoaderSetup :=
  { setup with checker := ⟨name, setup.checker.namespaceName⟩ }

namespace LoaderSetup

variable {setup : LoaderSetup} {fs : FileSystem} {loader : Loader}

/-- A build takes the name over and does nothing else with it. -/
theorem build_renamed (setup : LoaderSetup) (name : String) (fs : FileSystem) :
    ((setup.renamed name).build fs).1 =
      (fun loader => loader.renamed name) <$> (setup.build fs).1 := by
  -- of the checker only the namespace is looked at before a loader is there
  have hcheck : (setup.renamed name).check = setup.check := rfl
  cases hparts : setup.check with
  | error failure =>
    unfold build
    rw [hcheck, hparts]
    rfl
  | ok parts =>
    obtain ⟨resolver, package⟩ := parts
    rw [build_eq hparts, build_eq (hcheck.trans hparts)]
    show _ = (fun loader => loader.renamed name) <$> (_ <$> _ : Except LoadError Loader)
    rw [Functor.map_map]
    rfl

theorem checker_of_build (hbuild : (setup.build fs).1 = .ok loader) :
    loader.checker = setup.checker := by
  obtain ⟨_, _, _, -, -, rfl⟩ := exists_of_build hbuild
  rfl

end LoaderSetup

namespace Loader

/-- A load from a directory tells the user the name, if the directory is not there. -/
theorem loadDirectory_renamed (loader : Loader) (name : String) (files : FileSystem) (path : String) :
    SameButChecker loader.checker.name name (loader.loadDirectory files path).1
      ((loader.renamed name).loadDirectory files path).1 := by
  cases hdir : files.isDirectory path with
  | false =>
    rw [loadDirectory_of_not_isDirectory hdir, loadDirectory_of_not_isDirectory hdir]
    exact Or.inr ⟨_, rfl, rfl⟩
  | true =>
    -- the pass over the candidates does not look at the checker
    left
    unfold loadDirectory
    rw [if_pos hdir, if_pos hdir]
    rfl

/-- A load by name tells the user the checker's name with every rejection. -/
theorem loadClass_renamed (loader : Loader) (name typeName : String) :
    SameButChecker loader.checker.name name (loader.loadClass typeName).1
      ((loader.renamed name).loadClass typeName).1 := by
  have hverdict : (loader.renamed name).validator.validate (loader.renamed name).loaded typeName =
      loader.validator.validate loader.loaded typeName := rfl
  rw [loadClass_eq_bind, loadClass_eq_bind, hverdict]
  cases loader.validator.validate loader.loaded typeName with
  | error failure => exact Or.inl rfl
  | ok verdict =>
    cases verdict with
    | accepted d => exact Or.inl rfl
    | rejected reason => exact Or.inr ⟨refusal typeName reason, rfl, rfl⟩

/-- The names that a loader loads for a task. -/
def perform (loader : Loader) (fs : FileSystem) : Task → Except LoadError (List String)
  | .bundled => .ok loader.loaded.names
  | .externalDirectory path => do
    let found ← (loader.loadDirectory fs path).1
    .ok found.names
  | .externalClass typeName => do
    let descriptor ← (loader.loadClass typeName).1
    .ok [descriptor.name]

theorem perform_renamed (loader : Loader) (name : String) (fs : FileSystem) (task : Task) :
    SameButChecker loader.checker.name name (loader.perform fs task)
      ((loader.renamed name).perform fs task) := by
  cases task with
  | bundled => exact Or.inl rfl
  | externalDirectory path => exact (loader.loadDirectory_renamed name fs path).bind _
  | externalClass typeName => exact (loader.loadClass_renamed name typeName).bind _

end Loader

/-! ## Commands -/

namespace LoaderOptions

variable {options options' : LoaderOptions}

/-- Options that name the checker otherwise, but leave it in its namespace, build the same loader under
    the other name. -/
theorem build_of_same_namespace
    (hoptions : options' = { options with checker := options'.checker })
    (hnamespace : (Checker.ofTypeName options'.checker).namespaceName =
      (Checker.ofTypeName options.checker).namespaceName)
    (fs : FileSystem) (environment : Sources) :
    (options'.build fs environment).1 =
      (fun loader => loader.renamed (Checker.ofTypeName options'.checker).name) <$>
        (options.build fs environment).1 := by
  have hread : options'.read fs = options.read fs := by
    rw [hoptions]
    rfl
  have hcollect : options'.collect environment = options.collect environment := by
    rw [hoptions]
    rfl
  have hsetup : ∀ config registry searchPath, options'.setup config registry searchPath =
      (options.setup config registry searchPath).renamed (Checker.ofTypeName options'.checker).name := by
    intro config registry searchPath
    unfold setup LoaderSetup.renamed
    rw [← hnamespace]
  unfold build
  rw [hread, hcollect]
  cases options.read fs with
  | error failure => rfl
  | ok parts =>
    obtain ⟨config, registry⟩ := parts
    dsimp only
    rw [hsetup]
    exact LoaderSetup.build_renamed _ _ fs

theorem checker_of_build {fs : FileSystem} {environment : Sources} {loader : Loader}
    (hbuild : (options.build fs environment).1 = .ok loader) :
    loader.checker = Checker.ofTypeName options.checker := by
  unfold build at hbuild
  cases hread : options.read fs with
  | error failure =>
    rw [hread] at hbuild
    exact absurd hbuild (by simp)
  | ok parts =>
    rw [hread] at hbuild
    exact LoaderSetup.checker_of_build hbuild

end LoaderOptions

/-- Two commands that differ at most in the checker's name, and there in nothing before the last dot. -/
structure Command.AlikeButChecker (command command' : Command) : Prop where
  task_eq : command'.task = command.task
  options_eq : command'.options = { command.options with checker := command'.options.checker }
  package_eq : Name.package? command'.options.checker = Name.package? command.options.checker

namespace Command

variable {command command' : Command}

theorem AlikeButChecker.ofTypeName_eq (h : command.AlikeButChecker command') :
    Checker.ofTypeName command'.options.loaderOptions.checker =
      ⟨Name.simple command'.options.checker,
        (Checker.ofTypeName command.options.loaderOptions.checker).namespaceName⟩ := by
  have hnamespace : command'.options.namespaceName = command.options.namespaceName := by
    rw [h.options_eq]
  show Checker.ofTypeName (command'.options.namespaceName ++ "." ++ command'.options.checker) =
    ⟨_, (Checker.ofTypeName
      (command.options.namespaceName ++ "." ++ command.options.checker)).namespaceName⟩
  rw [Checker.ofTypeName_append, Checker.ofTypeName_append, h.package_eq, hnamespace]

theorem load_eq_bind (command : Command) (env : Variables) (fs : FileSystem) :
    command.load env fs =
      (command.options.loaderOptions.build fs (env.sources fs)).1 >>= fun loader =>
        loader.perform fs command.task := by
  unfold load
  cases command.task <;> rfl

/-- What such commands load is the same, but for the names before a message. -/
theorem load_alike (h : command.AlikeButChecker command') (env : Variables) (fs : FileSystem) :
    SameButChecker (Name.simple command.options.checker) (Name.simple command'.options.checker)
      (command.load env fs) (command'.load env fs) := by
  have htypeName := h.ofTypeName_eq
  have hoptions : command'.options.loaderOptions =
      { command.options.loaderOptions with checker := command'.options.loaderOptions.checker } := by
    rw [h.options_eq]
    rfl
  have hnamespace : (Checker.ofTypeName command'.options.loaderOptions.checker).namespaceName =
      (Checker.ofTypeName command.options.loaderOptions.checker).namespaceName := by
    rw [htypeName]
  rw [load_eq_bind, load_eq_bind, h.task_eq,
    LoaderOptions.build_of_same_namespace hoptions hnamespace, htypeName]
  cases hloader : (command.options.loaderOptions.build fs (env.sources fs)).1 with
  | error failure => exact Or.inl rfl
  | ok loader =>
    have hname : loader.checker.name = Name.simple command.options.checker := by
      rw [LoaderOptions.checker_of_build hloader]
      exact congrArg Checker.name
        (Checker.ofTypeName_append command.options.namespaceName command.options.checker)
    -- the two loaders are one under the two names
    rw [← hname]
    exact loader.perform_renamed (Name.simple command'.options.checker) fs command.task

end Command

/-- Outcomes that differ at most in the name before the message of a failure. -/
def Outcome.SameButChecker (name name' : String) (outcome outcome' : Outcome) : Prop :=
  outcome'.exitStatus = outcome.exitStatus ∧ outcome'.output = outcome.output ∧
    (outcome'.errors = outcome.errors ∨ ∃ complaints message,
      outcome.errors = complaints ++ ["Error: " ++ (name ++ ": " ++ message)] ∧
      outcome'.errors = complaints ++ ["Error: " ++ (name' ++ ": " ++ message)])

/-- **The checker's name is for messages only.** -/
theorem Command.run_alike {command command' : Command} (h : command.AlikeButChecker command')
    (env : Variables) (fs : FileSystem) :
    (command.run env fs).SameButChecker (Name.simple command.options.checker)
      (Name.simple command'.options.checker) (command'.run env fs) := by
  unfold run Outcome.SameButChecker
  obtain ⟨prepared, complaints⟩ := prepareLogs env fs
  dsimp only
  rcases load_alike h env prepared with hsame | ⟨message, hload, hload'⟩
  · rw [hsame]
    exact ⟨rfl, rfl, Or.inl rfl⟩
  · rw [hload, hload']
    exact ⟨rfl, rfl, Or.inr ⟨complaints, message, rfl, rfl⟩⟩

end QualifierDiscovery
