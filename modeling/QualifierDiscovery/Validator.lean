import QualifierDiscovery.Config
import QualifierDiscovery.Descriptor.Json
import QualifierDiscovery.Synthesis

/-!
# Validation of candidates

A candidate is accepted as a qualifier if it is known, is an annotation type that may be applied to
uses of types, can be synthesized and is supported by the checker. The set of qualifiers accepted so
far keeps the order of acceptance and holds no name twice; its members are not synthesized again.

- `Validator.checkShape` looks a candidate up and checks its form.
- `Validator.validate` decides about a candidate, given the qualifiers accepted so far.
-/

namespace QualifierDiscovery

/-- Why a candidate is not accepted. -/
inductive Rejection
  | notFound
  | notAnnotationType
  | noTarget
  | notTypeUse (targets : List ElementType)
  | synthesisFailed (cause : SynthesisError)
  | unsupported
  deriving DecidableEq

/-- The wording of a rejection. -/
def Rejection.message : Rejection → String
  | .notFound => "class not found"
  | .notAnnotationType => "not an annotation type"
  | .noTarget => "no @Target meta-annotation"
  | .notTypeUse targets =>
    "@Target [" ++ ", ".intercalate (targets.map ElementType.label)
      ++ "] is not restricted to type-use contexts"
  | .synthesisFailed cause => "structural synthesis failed: " ++ cause.message
  | .unsupported => "not supported by the checker"

/-- What becomes of a candidate. -/
inductive Verdict
  | accepted (descriptor : ClassDescriptor)
  | rejected (reason : Rejection)

/-- Accepted qualifiers in the order of acceptance, no name twice. -/
structure QualifierSet where
  members : List ClassDescriptor
  distinct : (members.map ClassDescriptor.name).Nodup

namespace QualifierSet

/-- The set without qualifiers. -/
def empty : QualifierSet := ⟨[], List.nodup_nil⟩

/-- The names in the order of acceptance. -/
def names (set : QualifierSet) : List String := set.members.map ClassDescriptor.name

/-- A qualifier of this name is in the set. -/
def contains (set : QualifierSet) (name : String) : Bool := set.names.contains name

/-- The qualifier of a name. -/
def get? (set : QualifierSet) (name : String) : Option ClassDescriptor :=
  set.members.find? fun d => d.name == name

/-- How many qualifiers are in the set. -/
def size (set : QualifierSet) : Nat := set.members.length

/-- The set with a qualifier at its end, unless one of that name is in it already. -/
def insert (set : QualifierSet) (descriptor : ClassDescriptor) : QualifierSet :=
  if h : descriptor.name ∈ set.members.map ClassDescriptor.name then set
  else
    ⟨set.members ++ [descriptor], by
      rw [List.map_append, List.nodup_append]
      exact ⟨set.distinct, by simp, fun a ha b hb => by
        rw [List.map_cons, List.map_nil, List.mem_singleton] at hb
        exact fun same => h (hb ▸ same ▸ ha)⟩⟩

end QualifierSet

/-- How candidates are looked up, synthesized and supported, and what a failed synthesis means. -/
structure Validator where
  resolve : Resolver
  synthesize : Synthesizer
  supports : Support
  policy : FailurePolicy

namespace Validator

/-- The descriptor of a candidate that is an annotation type for uses of types. -/
def checkShape (v : Validator) (name : String) : Except Rejection ClassDescriptor :=
  match v.resolve name with
  | none => .error .notFound
  | some descriptor =>
    if descriptor.isAnnotationType then
      match descriptor.targets? with
      | none => .error .noTarget
      | some targets =>
        if targetsTypeUse targets then .ok descriptor else .error (.notTypeUse targets)
    else .error .notAnnotationType

/-- What becomes of a candidate whose form is right. -/
def judge (v : Validator) (name : String) (descriptor : ClassDescriptor) :
    Except LoadError Verdict :=
  match v.synthesize descriptor with
  | .error cause =>
    match v.policy with
    | .abort => .error (.synthesis name cause)
    | .skip => .ok (.rejected (.synthesisFailed cause))
  | .ok mirror =>
    if v.supports descriptor mirror then .ok (.accepted descriptor)
    else .ok (.rejected .unsupported)

/-- What becomes of a candidate, given the qualifiers accepted so far. -/
def validate (v : Validator) (accepted : QualifierSet) (name : String) :
    Except LoadError Verdict :=
  match v.checkShape name with
  | .error reason => .ok (.rejected reason)
  | .ok descriptor =>
    if accepted.contains descriptor.name then .ok (.accepted descriptor)
    else v.judge name descriptor

/-- The set with every accepted one of the candidates, each judged against `known`. -/
def acceptAll (v : Validator) (known : QualifierSet → QualifierSet) :
    QualifierSet → List String → Except LoadError QualifierSet
  | found, [] => .ok found
  | found, name :: names => do
    match ← v.validate (known found) name with
    | .accepted descriptor => v.acceptAll known (found.insert descriptor) names
    | .rejected _ => v.acceptAll known found names

end Validator

end QualifierDiscovery
