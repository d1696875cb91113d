import QualifierDiscovery.Descriptor
import QualifierDiscovery.Files.FileSystem
import QualifierDiscovery.Json.Error
import QualifierDiscovery.Synthesis

/-!
# Why loading fails

Every way in which reading a configuration, a manifest or a package, or loading qualifiers, can
fail. `LoadError.message` words each cause.
-/

namespace QualifierDiscovery

/-- What is wrong with a configuration. -/
inductive ConfigFault
  | emptyPackageSuffix
  | badSuffix (suffix : String)
  | noResolver
  deriving DecidableEq

/-- Why an archive cannot be read. -/
inductive ArchiveFault
  | unopened
  | invalid
  deriving DecidableEq

/-- Why loading fails. -/
inductive LoadError
  | file (cause : FileError)
  | json (cause : Json.Error)
  | descriptor (fault : DescriptorFault)
  | packageName (name : String)
  | config (fault : ConfigFault)
  | archive (path : String) (fault : ArchiveFault)
  | user (checker message : String)
  | synthesis (name : String) (cause : SynthesisError)

/-- The wording of a configuration's fault. -/
def ConfigFault.message : ConfigFault → String
  | .emptyPackageSuffix => "qualifier package suffix must not be empty"
  | .badSuffix suffix => "suffix '" ++ suffix ++ "' must start with '.' and name an extension"
  | .noResolver => "a class resolver is required to build a loader"

/-- The wording of an archive's fault. -/
def ArchiveFault.message : ArchiveFault → String
  | .unopened => "i/o error"
  | .invalid => "invalid Zip archive"

namespace LoadError

/-- The wording of a failure. -/
def message : LoadError → String
  | .file cause => "I/O error: " ++ cause.message
  | .json cause => "JSON serialization/deserialization error: " ++ cause.message
  | .descriptor fault => "API error: Invalid descriptor: " ++ fault.message
  | .packageName name =>
    "API error: Invalid argument: '" ++ name ++ "' is not a valid package name"
  | .config fault => "Configuration error: " ++ fault.message
  | .archive path fault => "cannot open the archive " ++ path ++ ": " ++ fault.message
  | .user checker message => checker ++ ": " ++ message
  | .synthesis name cause => "cannot synthesize annotation " ++ name ++ ": " ++ cause.message

/-- The failure is the user's to mend: a misconfiguration, not a fault of the environment. -/
def isUserError : LoadError → Bool
  | .user _ _ => true
  | .config _ => true
  | _ => false

end LoadError

end QualifierDiscovery
