import QualifierDiscovery.Proofs.Acceptance
import QualifierDiscovery.Registry

/-!
# `Proofs.Registry` — what a registry resolves

A registry is keyed by the names of its descriptors, and it holds none that is faulty. So what it gives
for a name has that name, and the name is a qualified one.
-/

namespace QualifierDiscovery

namespace ClassDescriptor

theorem isQualified_of_fault?_eq_none {d : ClassDescriptor} (h : d.fault? = none) :
    Name.isQualified d.name = true := by
  unfold fault? at h
  split at h
  · assumption
  · exact absurd h (by simp)

end ClassDescriptor

namespace Registry

variable {registry : Registry} {name : String} {d : ClassDescriptor}

theorem mem_of_resolve (h : registry.resolve name = some d) : d ∈ registry.descriptors :=
  List.mem_of_find?_eq_some h

/-- **A registry gives a descriptor of the name it is asked for.** -/
theorem resolve_keyed (registry : Registry) : registry.resolve.Keyed := by
  intro name d h
  have hname := List.find?_some (p := fun d : ClassDescriptor => d.name == name) h
  exact beq_iff_eq.mp hname

/-- Names that a registry knows are qualified. -/
theorem isQualified_of_resolve (h : registry.resolve name = some d) :
    Name.isQualified name = true := by
  rw [← registry.resolve_keyed name d h]
  exact d.isQualified_of_fault?_eq_none (registry.faultless d (mem_of_resolve h))

/-- None of the built-in descriptors is faulty. -/
theorem fault?_of_mem_builtins : ∀ d ∈ builtins, d.fault? = none := by decide

/-- The built-in descriptors are faultless, so without manifests there is a registry. -/
theorem exists_load_nil (fs : FileSystem) : ∃ registry, load fs [] = .ok registry := by
  have hok : (empty.withAll builtins).isOk = true := by decide
  cases hregistry : empty.withAll builtins with
  | error failure =>
    rw [hregistry] at hok
    exact absurd hok (by simp [Except.isOk, Except.toBool])
  | ok registry =>
    refine ⟨registry, ?_⟩
    unfold load
    rw [hregistry]
    rfl

/-- The registry of one annotation type without elements that is a type qualifier. -/
def single (name : String) (h : Name.isQualified name = true) : Registry where
  descriptors := [⟨name, .annotationType, some [.typeUse], none, [], []⟩]
  sorted := List.pairwise_singleton _ _
  faultless := by
    intro d hd
    rw [List.mem_singleton.mp hd]
    exact if_pos h

end Registry

end QualifierDiscovery
