import QualifierDiscovery.Error
import QualifierDiscovery.Layout

/-!
# Loader configurations

What discovery needs to know of naming conventions: the suffix that makes a checker's namespace its
qualifier package, the layout of artifacts, and what to do when a qualifier cannot be synthesized.

- `Config.fault?` finds what is wrong with a configuration.
- `Config.load` reads a configuration from a file and refuses a faulty one.
-/

namespace QualifierDiscovery

/-- What to do when an annotation type of the right form cannot be synthesized. -/
inductive FailurePolicy
  /-- Stop the whole search. -/
  | abort
  /-- Leave the candidate out and go on. -/
  | skip
  deriving DecidableEq

/-- The policies with their names in JSON. -/
def FailurePolicy.names : List (String × FailurePolicy) := [("abort", .abort), ("skip", .skip)]

/-- The name of a policy in JSON. -/
def FailurePolicy.jsonName : FailurePolicy → String
  | .abort => "abort"
  | .skip => "skip"

/-- Reads a policy. -/
def FailurePolicy.decode : Json.Decoder FailurePolicy := Json.decodeVariant FailurePolicy.names

/-- The naming conventions and the policy of a loader. -/
structure Config where
  packageSuffix : String
  layout : Layout
  failurePolicy : FailurePolicy
  deriving DecidableEq

namespace Config

/-- The configuration that holds where nothing else is said. -/
def standard : Config := ⟨".qual", Layout.java, .abort⟩

/-- The first fault of a configuration. -/
def fault? (config : Config) : Option ConfigFault :=
  if (Text.dropLeading '.' config.packageSuffix).isEmpty then some .emptyPackageSuffix
  else config.layout.badSuffix?.map .badSuffix

/-- What has been read of a configuration. -/
structure Draft where
  packageSuffix : Option String := none
  layout : Option Layout := none
  failurePolicy : Option FailurePolicy := none

/-- The record that a configuration is in JSON. What is missing is as in `standard`. -/
def record : Json.Record Draft Config where
  name := "LoaderConfig"
  fields :=
    [.of "qual_suffix" true Draft.packageSuffix (fun x d => { d with packageSuffix := some x })
        Json.decodeString,
      .of "layout" true Draft.layout (fun x d => { d with layout := some x }) Layout.decode,
      .of "synthesis_failure" true Draft.failurePolicy
        (fun x d => { d with failurePolicy := some x }) FailurePolicy.decode]
  empty := {}
  finish := fun draft =>
    .ok ⟨draft.packageSuffix.getD standard.packageSuffix, draft.layout.getD standard.layout,
      draft.failurePolicy.getD standard.failurePolicy⟩

/-- Reads a configuration. -/
def decode : Json.Decoder Config := Json.decodeRecord record

/-- A configuration as a JSON value. -/
def toJson (config : Config) : Json.Value :=
  .object [("qual_suffix", .string config.packageSuffix), ("layout", config.layout.toJson),
    ("synthesis_failure", .string config.failurePolicy.jsonName)]

/-- The configuration if nothing is wrong with it. -/
def check (config : Config) : Except LoadError Config :=
  match config.fault? with
  | some fault => .error (.config fault)
  | none => .ok config

/-- Reads a configuration from a text and checks it. -/
def ofText (text : String) : Except LoadError Config := do
  let config ← (Json.decodeText decode text).mapError .json
  config.check

/-- Reads a configuration from a file and checks it. -/
def load (fs : FileSystem) (path : String) : Except LoadError Config := do
  let text ← (fs.readText path).mapError .file
  ofText text

end Config

end QualifierDiscovery
