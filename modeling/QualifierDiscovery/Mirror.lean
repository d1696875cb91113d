import QualifierDiscovery.Json.Printer
import QualifierDiscovery.Text.Order

/-!
# Annotation mirrors

An annotation mirror shows that an annotation type can be used: it names the type and holds a value
for each of its elements. The values are kept sorted by element, and a later value for an element
replaces the earlier one.

- `AnnotationMirror.text` writes a mirror as the annotation is written, `@name(element=value, …)`.
-/

namespace QualifierDiscovery

/-- An annotation type and the values of its elements, sorted by element. -/
structure AnnotationMirror where
  annotationType : String
  values : List (String × Json.Value)

namespace AnnotationMirror

/-- The mirror of an annotation type without any values. -/
def ofType (annotationType : String) : AnnotationMirror := ⟨annotationType, []⟩

/-- The mirror with a value for an element. -/
def withValue (mirror : AnnotationMirror) (element : String) (value : Json.Value) :
    AnnotationMirror :=
  { mirror with values := Text.putSorted element value mirror.values }

/-- The value of an element. -/
def value? (mirror : AnnotationMirror) (element : String) : Option Json.Value :=
  Text.valueAt? element mirror.values

/-- The elements that have a value, in increasing order. -/
def elements (mirror : AnnotationMirror) : List String := mirror.values.map Prod.fst

/-- The mirror as an annotation is written. -/
def text (mirror : AnnotationMirror) : String :=
  "@" ++ mirror.annotationType ++
    if mirror.values.isEmpty then ""
    else
      "(" ++ ", ".intercalate (mirror.values.map fun (element, value) =>
        element ++ "=" ++ value.compact) ++ ")"

/-- The mirror as a JSON value. -/
def toJson (mirror : AnnotationMirror) : Json.Value :=
  .object [("annotation_type", .string mirror.annotationType), ("values", .object mirror.values)]

end AnnotationMirror

end QualifierDiscovery
