import QualifierDiscovery.JvmEnvironment
import QualifierDiscovery.Loader
import QualifierDiscovery.Registry

/-!
# Building a loader from files

What a host knows of a checker is enough to build its loader: the configuration and the descriptors
are read from files, and the search path is collected from the environment and the host's additions.

- `LoaderOptions.build` builds the loader.
-/

namespace QualifierDiscovery

/-- What a host knows of the checker that it loads qualifiers for. -/
structure LoaderOptions where
  checker : String
  manifests : List String
  classPath : List String
  loaderUrls : List String
  configFile : Option String
  deriving DecidableEq

namespace LoaderOptions

/-- The configuration of the host's file, or the standard one. -/
def config (options : LoaderOptions) (fs : FileSystem) : Except LoadError Config :=
  match options.configFile with
  | some path => Config.load fs path
  | none => .ok .standard

/-- The configuration and the descriptors, the first failure to read them coming first. -/
def read (options : LoaderOptions) (fs : FileSystem) : Except LoadError (Config × Registry) := do
  let config ← options.config fs
  let registry ← Registry.load fs options.manifests
  .ok (config, registry)

/-- The search path of an environment with the host's additions, and the notes on it. -/
def collect (options : LoaderOptions) (environment : Sources) : SearchPath × List Diagnostic :=
  (Collector.ofSources ((environment.withClassPath options.classPath).withLoaderUrls
    options.loaderUrls)).collect

/-- The setup of a loader. -/
def setup (options : LoaderOptions) (config : Config) (registry : Registry)
    (searchPath : SearchPath) : LoaderSetup where
  checker := Checker.ofTypeName options.checker
  config := config
  searchPath := searchPath
  resolver := some registry.resolve
  synthesizer := none
  support := Support.always

/-- Builds the loader of a checker in an environment. -/
def build (options : LoaderOptions) (fs : FileSystem) (environment : Sources) : Reported Loader :=
  match options.read fs with
  | .error failure => (.error failure, [])
  | .ok (config, registry) =>
    let (searchPath, collected) := options.collect environment
    let (result, located) := (options.setup config registry searchPath).build fs
    (result, collected ++ located)

end LoaderOptions

end QualifierDiscovery
