import QualifierDiscovery.Descriptor
import QualifierDiscovery.Json.Decode
import QualifierDiscovery.Json.Printer

/-!
# Descriptors in JSON

Descriptors are read from JSON and written back to it. Reading wants a name and a kind and, for an
element, a name and a type; the rest may be missing. Writing leaves out what is empty or absent.
-/

namespace QualifierDiscovery

/-! ## Names of the variants -/

/-- The contexts with their names in JSON. -/
def ElementType.names : List (String × ElementType) :=
  [("TYPE", .type), ("FIELD", .field), ("METHOD", .method), ("PARAMETER", .parameter),
    ("CONSTRUCTOR", .constructor), ("LOCAL_VARIABLE", .localVariable),
    ("ANNOTATION_TYPE", .annotationType), ("PACKAGE", .package),
    ("TYPE_PARAMETER", .typeParameter), ("TYPE_USE", .typeUse), ("MODULE", .module),
    ("RECORD_COMPONENT", .recordComponent)]

/-- The name of a context in JSON. -/
def ElementType.jsonName : ElementType → String
  | .type => "TYPE"
  | .field => "FIELD"
  | .method => "METHOD"
  | .parameter => "PARAMETER"
  | .constructor => "CONSTRUCTOR"
  | .localVariable => "LOCAL_VARIABLE"
  | .annotationType => "ANNOTATION_TYPE"
  | .package => "PACKAGE"
  | .typeParameter => "TYPE_PARAMETER"
  | .typeUse => "TYPE_USE"
  | .module => "MODULE"
  | .recordComponent => "RECORD_COMPONENT"

/-- The name of a context in messages. -/
def ElementType.label : ElementType → String
  | .type => "Type"
  | .field => "Field"
  | .method => "Method"
  | .parameter => "Parameter"
  | .constructor => "Constructor"
  | .localVariable => "LocalVariable"
  | .annotationType => "AnnotationType"
  | .package => "Package"
  | .typeParameter => "TypeParameter"
  | .typeUse => "TypeUse"
  | .module => "Module"
  | .recordComponent => "RecordComponent"

/-- The kinds with their names in JSON. -/
def ClassKind.names : List (String × ClassKind) :=
  [("class", .classType), ("interface", .interfaceType), ("enum", .enumType),
    ("annotation", .annotationType), ("record", .recordType)]

/-- The name of a kind in JSON. -/
def ClassKind.jsonName : ClassKind → String
  | .classType => "class"
  | .interfaceType => "interface"
  | .enumType => "enum"
  | .annotationType => "annotation"
  | .recordType => "record"

/-- The retention policies with their names in JSON. -/
def RetentionPolicy.names : List (String × RetentionPolicy) :=
  [("SOURCE", .source), ("CLASS", .binary), ("RUNTIME", .runtime)]

/-- The name of a retention policy in JSON. -/
def RetentionPolicy.jsonName : RetentionPolicy → String
  | .source => "SOURCE"
  | .binary => "CLASS"
  | .runtime => "RUNTIME"

theorem ElementType.valueAt_jsonName (t : ElementType) :
    Text.valueAt? t.jsonName ElementType.names = some t := by
  cases t <;> decide

theorem ClassKind.valueAt_jsonName (k : ClassKind) :
    Text.valueAt? k.jsonName ClassKind.names = some k := by
  cases k <;> decide

theorem RetentionPolicy.valueAt_jsonName (p : RetentionPolicy) :
    Text.valueAt? p.jsonName RetentionPolicy.names = some p := by
  cases p <;> decide

/-! ## Reading -/

/-- Reads a list of contexts. -/
def decodeTargets : Json.Decoder (List ElementType) :=
  Json.decodeList (Json.decodeVariant ElementType.names)

namespace ElementDescriptor

/-- What has been read of an element. -/
structure Draft where
  name : Option String := none
  valueType : Option String := none
  default : Option (Option Json.Value) := none

/-- The record that an element is in JSON. -/
def record : Json.Record Draft ElementDescriptor where
  name := "ElementDescriptor"
  fields :=
    [.of "name" false Draft.name (fun x d => { d with name := some x }) Json.decodeString,
      .of "value_type" false Draft.valueType (fun x d => { d with valueType := some x })
        Json.decodeString,
      .of "default" true Draft.default (fun x d => { d with default := some x })
        (Json.decodeOptional Json.readValue)]
  empty := {}
  finish := fun draft => do
    let name ← Json.required "name" draft.name
    let valueType ← Json.required "value_type" draft.valueType
    .ok ⟨name, valueType, draft.default.join⟩

/-- Reads an element. -/
def decode : Json.Decoder ElementDescriptor := Json.decodeRecord record

/-- An element as a JSON value. -/
def toJson (e : ElementDescriptor) : Json.Value :=
  .object ([("name", .string e.name), ("value_type", .string e.valueType)]
    ++ match e.default? with
      | some value => [("default", value)]
      | none => [])

end ElementDescriptor

namespace ClassDescriptor

/-- What has been read of a descriptor. -/
structure Draft where
  name : Option String := none
  kind : Option ClassKind := none
  targets : Option (Option (List ElementType)) := none
  retention : Option (Option RetentionPolicy) := none
  elements : Option (List ElementDescriptor) := none
  metaAnnotations : Option (List String) := none

/-- The record that a descriptor is in JSON. -/
def record : Json.Record Draft ClassDescriptor where
  name := "ClassDescriptor"
  fields :=
    [.of "name" false Draft.name (fun x d => { d with name := some x }) Json.decodeString,
      .of "kind" false Draft.kind (fun x d => { d with kind := some x })
        (Json.decodeVariant ClassKind.names),
      .of "target" true Draft.targets (fun x d => { d with targets := some x })
        (Json.decodeOptional decodeTargets),
      .of "retention" true Draft.retention (fun x d => { d with retention := some x })
        (Json.decodeOptional (Json.decodeVariant RetentionPolicy.names)),
      .of "elements" true Draft.elements (fun x d => { d with elements := some x })
        (Json.decodeList ElementDescriptor.decode),
      .of "meta_annotations" true Draft.metaAnnotations
        (fun x d => { d with metaAnnotations := some x }) (Json.decodeList Json.decodeString)]
  empty := {}
  finish := fun draft => do
    let name ← Json.required "name" draft.name
    let kind ← Json.required "kind" draft.kind
    .ok ⟨name, kind, draft.targets.join, draft.retention.join, draft.elements.getD [],
      draft.metaAnnotations.getD []⟩

/-- Reads a descriptor. -/
def decode : Json.Decoder ClassDescriptor := Json.decodeRecord record

/-- A descriptor as a JSON value. -/
def toJson (d : ClassDescriptor) : Json.Value :=
  .object ([("name", .string d.name), ("kind", .string d.kind.jsonName)]
    ++ (match d.targets? with
      | some targets => [("target", .ofStrings (targets.map ElementType.jsonName))]
      | none => [])
    ++ (match d.retention? with
      | some policy => [("retention", .string policy.jsonName)]
      | none => [])
    ++ (if d.elements.isEmpty then []
      else [("elements", .array (d.elements.map ElementDescriptor.toJson))])
    ++ (if d.metaAnnotations.isEmpty then []
      else [("meta_annotations", .ofStrings d.metaAnnotations)]))

end ClassDescriptor

end QualifierDiscovery
