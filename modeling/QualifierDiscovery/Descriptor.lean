import QualifierDiscovery.Json.Value
import QualifierDiscovery.Name

/-!
# Class descriptors

What is statically known of a class: its name and kind and, for an annotation type, the contexts it
may be applied to, how long it is kept, its elements and the annotations on it.

- `targetsTypeUse` decides whether a list of contexts makes an annotation a type qualifier.
- `ClassDescriptor.fault?` finds the first fault of a descriptor: a name that is not dotted
  identifiers, an element without a name or one declared twice.
-/

namespace QualifierDiscovery

/-- A context that an annotation may be applied to. -/
inductive ElementType
  | type | field | method | parameter | constructor | localVariable | annotationType | package
  | typeParameter | typeUse | module | recordComponent
  deriving DecidableEq

/-- The kind of a class. -/
inductive ClassKind
  | classType | interfaceType | enumType | annotationType | recordType
  deriving DecidableEq

/-- How long an annotation is kept. -/
inductive RetentionPolicy
  | source | binary | runtime
  deriving DecidableEq

/-- A declared element of an annotation type, with the value it has where none is given. -/
structure ElementDescriptor where
  name : String
  valueType : String
  default? : Option Json.Value

/-- What is statically known of a class. No targets at all is not the same as an empty list. -/
structure ClassDescriptor where
  name : String
  kind : ClassKind
  targets? : Option (List ElementType)
  retention? : Option RetentionPolicy
  elements : List ElementDescriptor
  metaAnnotations : List String

/-- An annotation type of this target list is a type qualifier: it may be applied to uses of types,
and besides them to type parameters only. -/
def targetsTypeUse (targets : List ElementType) : Bool :=
  targets.contains .typeUse &&
    targets.all fun target => target == .typeUse || target == .typeParameter

/-- What is wrong with a descriptor. -/
inductive DescriptorFault
  | unqualifiedName (name : String)
  | namelessElement (className : String)
  | repeatedElement (className element : String)
  deriving DecidableEq

/-- The wording of a fault. -/
def DescriptorFault.message : DescriptorFault → String
  | .unqualifiedName name => "'" ++ name ++ "' is not a valid qualified class name"
  | .namelessElement className => className ++ " declares an element with an empty name"
  | .repeatedElement className element =>
    className ++ " declares element '" ++ element ++ "' more than once"

namespace ClassDescriptor

/-- The name without its package. -/
def simpleName (d : ClassDescriptor) : String := Name.simple d.name

/-- The name of the package, if the class is in one. -/
def packageName? (d : ClassDescriptor) : Option String := Name.package? d.name

/-- The class is an annotation type. -/
def isAnnotationType (d : ClassDescriptor) : Bool := d.kind == .annotationType

/-- An annotation of this name stands on the class. -/
def carries (d : ClassDescriptor) (name : String) : Bool := d.metaAnnotations.contains name

/-- The first fault in a list of element names, given the names before it. -/
def elementFault? (className : String) (before : List String) : List String → Option DescriptorFault
  | [] => none
  | name :: names =>
    if name.isEmpty then some (.namelessElement className)
    else if before.contains name then some (.repeatedElement className name)
    else elementFault? className (name :: before) names

/-- The first fault of a descriptor. -/
def fault? (d : ClassDescriptor) : Option DescriptorFault :=
  if Name.isQualified d.name then
    elementFault? d.name [] (d.elements.map ElementDescriptor.name)
  else some (.unqualifiedName d.name)

end ClassDescriptor

end QualifierDiscovery
