import QualifierDiscovery.Descriptor.Json
import QualifierDiscovery.Error
import QualifierDiscovery.Files.Edit

/-!
# Descriptor registries

A registry maps class names to descriptors. It is filled one descriptor at a time, from lists or
from manifest files; a later descriptor of a name replaces the earlier one, and a faulty one is
refused.

- `Registry.register` adds a descriptor, `registerAll` a list of them up to the first faulty one.
- `Registry.resolve` looks a name up; `toManifest` lists the descriptors in the order of their
  names.
- `Registry.load` starts from the built-in descriptors and adds the manifests in their order.
-/

namespace QualifierDiscovery

/-- Descriptors without fault, sorted by name, no two of the same name. -/
structure Registry where
  descriptors : List ClassDescriptor
  sorted : Text.IncreasingBy ClassDescriptor.name descriptors
  faultless : ∀ d ∈ descriptors, d.fault? = none

/-- The form of a registry in a file. -/
structure Manifest where
  descriptors : List ClassDescriptor

namespace Manifest

/-- What has been read of a manifest. -/
structure Draft where
  descriptors : Option (List ClassDescriptor) := none

/-- The record that a manifest is in JSON. -/
def record : Json.Record Draft Manifest where
  name := "DescriptorManifest"
  fields :=
    [.of "descriptors" true Draft.descriptors (fun x _ => ⟨some x⟩)
        (Json.decodeList ClassDescriptor.decode)]
  empty := {}
  finish := fun draft => .ok ⟨draft.descriptors.getD []⟩

/-- Reads a manifest. -/
def decode : Json.Decoder Manifest := Json.decodeRecord record

/-- A manifest as a JSON value. -/
def toJson (manifest : Manifest) : Json.Value :=
  .object [("descriptors", .array (manifest.descriptors.map ClassDescriptor.toJson))]

/-- Reads a manifest from a text. -/
def ofText (text : String) : Except LoadError Manifest :=
  (Json.decodeText decode text).mapError .json

/-- Reads a manifest from a file. -/
def load (fs : FileSystem) (path : String) : Except LoadError Manifest := do
  let text ← (fs.readText path).mapError .file
  ofText text

end Manifest

namespace Registry

/-- The registry without descriptors. -/
def empty : Registry where
  descriptors := []
  sorted := .nil
  faultless := fun _ mem => absurd mem List.not_mem_nil

/-- The descriptor of a name. -/
def resolve (registry : Registry) : Resolver := fun name =>
  registry.descriptors.find? fun d => d.name == name

/-- How many names have a descriptor. -/
def size (registry : Registry) : Nat := registry.descriptors.length

/-- The registry with a descriptor for its name; a faulty descriptor is refused. -/
def register (registry : Registry) (descriptor : ClassDescriptor) : Except LoadError Registry :=
  match sound : descriptor.fault? with
  | some fault => .error (.descriptor fault)
  | none =>
    .ok {
      descriptors := Text.putBy ClassDescriptor.name descriptor registry.descriptors
      sorted := registry.sorted.putBy
      faultless := fun d mem => by
        rcases Text.eq_or_mem_of_mem_putBy mem with same | mem
        · exact same ▸ sound
        · exact registry.faultless d mem }

/-- The registry with the descriptors of a list up to the first faulty one, and the failure that one
gives. -/
def registerAll (registry : Registry) : List ClassDescriptor → Registry × Option LoadError
  | [] => (registry, none)
  | descriptor :: rest =>
    match registry.register descriptor with
    | .ok registry => registry.registerAll rest
    | .error failure => (registry, some failure)

/-- The registry with all descriptors of a list, if none is faulty. -/
def withAll (registry : Registry) (descriptors : List ClassDescriptor) :
    Except LoadError Registry :=
  match registry.registerAll descriptors with
  | (registry, none) => .ok registry
  | (_, some failure) => .error failure

/-- The registry of a manifest. -/
def ofManifest (manifest : Manifest) : Except LoadError Registry :=
  empty.withAll manifest.descriptors

/-- The registry of a manifest in a file. -/
def ofManifestFile (fs : FileSystem) (path : String) : Except LoadError Registry := do
  let manifest ← Manifest.load fs path
  ofManifest manifest

/-- The descriptors in the order of their names. -/
def toManifest (registry : Registry) : Manifest := ⟨registry.descriptors⟩

/-- The text of the registry's manifest file. -/
def manifestText (registry : Registry) : String := registry.toManifest.toJson.pretty

/-- Writes the registry's manifest to a file. -/
def writeManifest (registry : Registry) (fs : FileSystem) (path : String) :
    Except LoadError FileSystem :=
  (fs.writeFile path (Text.encode registry.manifestText)).mapError .file

/-! ## Built-in descriptors -/

/-- An annotation type that stands on annotation types. -/
def metaAnnotationType (name : String) (elements : List ElementDescriptor) : ClassDescriptor where
  name := name
  kind := .annotationType
  targets? := some [.annotationType]
  retention? := some .runtime
  elements := elements
  metaAnnotations := ["java.lang.annotation.Documented"]

/-- The annotation types that qualifier descriptors refer to. None of them is a qualifier. -/
def builtins : List ClassDescriptor :=
  [metaAnnotationType "java.lang.annotation.Target"
      [⟨"value", "java.lang.annotation.ElementType[]", none⟩],
    metaAnnotationType "java.lang.annotation.Retention"
      [⟨"value", "java.lang.annotation.RetentionPolicy", none⟩],
    metaAnnotationType "java.lang.annotation.Documented" [],
    metaAnnotationType "java.lang.annotation.Inherited" [],
    metaAnnotationType "java.lang.annotation.Repeatable" [⟨"value", "java.lang.Class", none⟩]]

/-- The registry with the descriptors of manifest files added, one file after the other. -/
def addManifests (registry : Registry) (fs : FileSystem) : List String → Except LoadError Registry
  | [] => .ok registry
  | path :: paths => do
    let manifest ← Manifest.load fs path
    let registry ← registry.withAll manifest.descriptors
    registry.addManifests fs paths

/-- The registry of the built-in descriptors and the manifest files. -/
def load (fs : FileSystem) (manifests : List String) : Except LoadError Registry := do
  let registry ← empty.withAll builtins
  registry.addManifests fs manifests

end Registry

end QualifierDiscovery
