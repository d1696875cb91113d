import QualifierDiscovery.Candidates.Bundled
import QualifierDiscovery.Candidates.External
import QualifierDiscovery.Diagnostic
import QualifierDiscovery.Validator

/-!
# Qualifier loaders

A loader works for one checker. While it is built it finds the checker's qualifier package and loads
the qualifiers bundled there; afterwards it loads qualifiers of the user's, from a directory or by
name, without changing the bundled ones.

- `LoaderSetup.build` builds a loader.
- `Loader.loadDirectory` and `Loader.loadClass` load the user's qualifiers. A user error is also
  reported as a diagnostic.
-/

namespace QualifierDiscovery

/-- The checker that a loader works for. -/
structure Checker where
  name : String
  namespaceName : String
  deriving DecidableEq

/-- The checker of a type's name: the last piece of the name in the namespace of the others. -/
def Checker.ofTypeName (typeName : String) : Checker :=
  match (Name.segments typeName).reverse with
  | [] => ⟨typeName, ""⟩
  | name :: before => ⟨name, Text.join '.' before.reverse⟩

/-- What a loader is built from. -/
structure LoaderSetup where
  checker : Checker
  config : Config
  searchPath : SearchPath
  resolver : Option Resolver
  /-- Where none is given, the default synthesizer over the resolver. -/
  synthesizer : Option Synthesizer
  support : Support

/-- A loader with the qualifiers of its package. -/
structure Loader where
  checker : Checker
  config : Config
  package : Package
  location : Option Location
  validator : Validator
  loaded : QualifierSet

/-- A result together with what was reported on the way. -/
abbrev Reported (α : Type) := Except LoadError α × List Diagnostic

namespace LoaderSetup

/-- The validator of a setup whose resolver is known. -/
def validatorFor (setup : LoaderSetup) (resolver : Resolver) : Validator where
  resolve := resolver
  synthesize := setup.synthesizer.getD (synthesizeFrom resolver)
  supports := setup.support
  policy := setup.config.failurePolicy

/-- The qualifiers bundled in a package: its candidates in order, each judged against those accepted
before it. -/
def loadBundled (fs : FileSystem) (layout : Layout) (package : Package)
    (location : Option Location) (validator : Validator) : Except LoadError QualifierSet := do
  let names ← bundledNames fs layout package location
  validator.acceptAll id .empty (names.map package.qualify)

/-- The parts of a setup that have to be right before anything is searched. -/
def check (setup : LoaderSetup) : Except LoadError (Resolver × Package) := do
  let config ← setup.config.check
  match setup.resolver with
  | none => .error (.config .noResolver)
  | some resolver =>
    match Package.forNamespace? setup.checker.namespaceName config.packageSuffix with
    | some package => .ok (resolver, package)
    | none =>
      .error (.packageName (Package.nameFor setup.checker.namespaceName config.packageSuffix))

/-- Builds a loader: finds the qualifier package and loads what is bundled there. -/
def build (setup : LoaderSetup) (fs : FileSystem) : Reported Loader :=
  match setup.check with
  | .error failure => (.error failure, [])
  | .ok (resolver, package) =>
    let (location, notes) := locate fs setup.config.layout package setup.searchPath
    let validator := setup.validatorFor resolver
    match loadBundled fs setup.config.layout package location validator with
    | .error failure => (.error failure, notes)
    | .ok loaded =>
      (.ok ⟨setup.checker, setup.config, package, location, validator, loaded⟩, notes)

end LoaderSetup

namespace Loader

/-- A failure that the user has to mend, with its report. -/
def userFailure {α : Type} (loader : Loader) (message : String) : Reported α :=
  (.error (.user loader.checker.name message),
    [.error (loader.checker.name ++ ": " ++ message)])

/-- Loads every acceptable qualifier whose source file lies below a directory. -/
def loadDirectory (loader : Loader) (fs : FileSystem) (path : String) : Reported QualifierSet :=
  if fs.isDirectory path then
    let names := externalNames fs loader.config.layout path
    (loader.validator.acceptAll (fun _ => loader.loaded) .empty names, [])
  else
    loader.userFailure
      ("qualifier directory " ++ path ++ " does not exist or is not a directory")

/-- Why a qualifier that the user named cannot be loaded. -/
def refusal (name : String) : Rejection → String
  | .notFound =>
    "could not load class for annotation: " ++ name ++ "; ensure that your classpath is correct"
  | .notAnnotationType =>
    "the loaded class: " ++ name ++ " is not an annotation, ensure it is defined correctly"
  | reason =>
    "the loaded class: " ++ name ++ " cannot be used as a type qualifier: " ++ reason.message

/-- Loads the qualifier of a name. Every rejection is the user's to mend. -/
def loadClass (loader : Loader) (name : String) : Reported ClassDescriptor :=
  match loader.validator.validate loader.loaded name with
  | .error failure => (.error failure, [])
  | .ok (.accepted descriptor) => (.ok descriptor, [])
  | .ok (.rejected reason) => loader.userFailure (refusal name reason)

end Loader

end QualifierDiscovery
