import QualifierDiscovery.Descriptor
import QualifierDiscovery.Mirror

/-!
# Synthesis of annotations

A synthesizer makes the mirror of an annotation type, or says why there is none. The default one
looks the type up in an environment and takes every element's value from its default.

- `synthesizeFrom` is the default synthesizer over an environment.
-/

namespace QualifierDiscovery

/-- Why a mirror cannot be made. -/
inductive SynthesisError
  | unknownType (name : String)
  | notAnnotationType (name : String)
  | missingValue (annotationType element : String)
  deriving DecidableEq

/-- The wording of a failed synthesis. -/
def SynthesisError.message : SynthesisError → String
  | .unknownType name => "annotation type " ++ name ++ " is unknown to the processing environment"
  | .notAnnotationType name => name ++ " is not an annotation type"
  | .missingValue annotationType element =>
    "missing value for element '" ++ element ++ "' of " ++ annotationType

/-- Finds the descriptor of a class by its name. -/
abbrev Resolver := String → Option ClassDescriptor

/-- Makes the mirror of an annotation type. -/
abbrev Synthesizer := ClassDescriptor → Except SynthesisError AnnotationMirror

/-- Decides whether a checker supports an annotation type that has a mirror. -/
abbrev Support := ClassDescriptor → AnnotationMirror → Bool

/-- A mirror with the defaults of a list of elements added; the first element without a default
fails. -/
def fillDefaults : AnnotationMirror → List ElementDescriptor →
    Except SynthesisError AnnotationMirror
  | mirror, [] => .ok mirror
  | mirror, element :: elements =>
    match element.default? with
    | some value => fillDefaults (mirror.withValue element.name value) elements
    | none => .error (.missingValue mirror.annotationType element.name)

/-- The default synthesizer: the environment's own descriptor of the type gives the elements. -/
def synthesizeFrom (environment : Resolver) : Synthesizer := fun descriptor =>
  match environment descriptor.name with
  | none => .error (.unknownType descriptor.name)
  | some declared =>
    if declared.isAnnotationType then fillDefaults (.ofType declared.name) declared.elements
    else .error (.notAnnotationType declared.name)

namespace Support

/-- Supports every annotation type that has a mirror. -/
def always : Support := fun _ _ => true

/-- Supports the annotation types that carry an annotation of the given name. -/
def requiresMeta (name : String) : Support := fun descriptor _ => descriptor.carries name

/-- Supports all annotation types but those of the given simple names. -/
def denySimple (names : List String) : Support := fun descriptor _ =>
  !names.contains descriptor.simpleName

/-- Supports the annotation types whose mirror has values for all the given elements. -/
def mirrorHas (elements : List String) : Support := fun _ mirror =>
  elements.all fun element => (mirror.value? element).isSome

end Support

end QualifierDiscovery
