import QualifierDiscovery.Proofs.Files.Writing
import QualifierDiscovery.Proofs.Manifests
import QualifierDiscovery.Proofs.RegistryHistory

/-!
# `Proofs.ManifestFiles` — reading the file that a registry writes

What a registry writes to a file is read back as the same registry, if its defaults do not nest too deeply
for a manifest. Descriptors can come from texts that put fewer levels around their defaults than a manifest
does, and nothing checks the levels when they are registered or written. So a registry can hold defaults
that it writes and that reading refuses (`writeManifest_deep`); `ofManifestFile_writeManifest` says which.

## Contents
- **Parsed descriptors.** `ClassDescriptor.Parsed` — a descriptor that some text was read as, and what is
  known of its defaults.
- **Histories.** `mem_given` — a registry holds nothing but what it was given.
- **Files.** `ofManifestFile_of_writeManifest` for one registry, and the same for every history.
- **Defaults that are too deep.** A history with one of them.
-/

namespace QualifierDiscovery

open Json (Value)

/-! ## Parsed descriptors -/

namespace ClassDescriptor

variable {d : ClassDescriptor}

/-- Some text was read as the descriptor: its own, or that of a list or a manifest with it. -/
inductive Parsed : ClassDescriptor → Prop
  | single {d : ClassDescriptor} {text : String} (h : Json.decodeText decode text = .ok d) : Parsed d
  | listed {d : ClassDescriptor} {ds : List ClassDescriptor} {text : String}
    (h : Json.decodeText (Json.decodeList decode) text = .ok ds) (hd : d ∈ ds) : Parsed d
  | exported {d : ClassDescriptor} {m : Manifest} {text : String} (h : Manifest.ofText text = .ok m)
    (hd : d ∈ m.descriptors) : Parsed d

/-- The defaults of a parsed descriptor are proper, and they are at least three levels deep in the text. -/
theorem Parsed.defaults (h : d.Parsed) :
    ∀ v ∈ d.defaults, v.Proper ∧ v.nesting + 3 ≤ Json.nestingLimit := by
  cases h with
  | single h => exact Json.ensures_decodeText (ensures_decode _) h
  | listed h hd =>
    obtain ⟨inner, hlimit, hall⟩ := Json.ensures_decodeText (Json.ensures_decodeList ensures_decode _) h
    intro v hv
    obtain ⟨hproper, hnesting⟩ := hall d hd v hv
    exact ⟨hproper, by omega⟩
  | exported h hd =>
    intro v hv
    obtain ⟨hproper, hnesting⟩ := Manifest.forall_mem_defaults.mp (Manifest.defaults_of_ofText h) d hd v hv
    exact ⟨hproper, by omega⟩

/-- A descriptor whose defaults leave three levels is parsed from its own text. -/
theorem parsed_of_defaults (h : ∀ v ∈ d.defaults, v.Proper ∧ v.FloatFree)
    (hnesting : ∀ v ∈ d.defaults, v.nesting + 3 ≤ Json.nestingLimit) : d.Parsed := by
  have hlevels : d.toJson.nesting ≤ 124 + 3 :=
    nesting_toJson_le_iff.mpr fun v hv => Nat.le_of_add_le_add_right (hnesting v hv)
  have htext : Json.decodeText decode d.toJson.pretty = .ok d := by
    rw [Json.decodeText_pretty (decodes_toJson h)]
    exact if_pos hlevels
  exact .single htext

end ClassDescriptor

namespace Registry

variable {registry : Registry} {fs written : FileSystem} {path : String} {steps : List Step}
  {d : ClassDescriptor}

/-! ## Histories -/

/-- The descriptors that a step is given, registered or not. -/
def Step.given : Step → List ClassDescriptor
  | .register d => [d]
  | .registerAll ds => ds
  | .load manifest => manifest.descriptors

theorem Step.mem_given {step : Step} (h : d ∈ step.registered) : d ∈ step.given := by
  cases step with
  | register other => exact (List.mem_filter.mp h).1
  | registerAll ds => exact (List.takeWhile_sublist _).mem h
  | load manifest =>
    rw [registered] at h
    split at h
    · exact h
    · exact absurd h List.not_mem_nil

/-- **A registry holds nothing but what it was given**, whatever the steps of its history. -/
theorem mem_given (h : d ∈ (empty.after steps).descriptors) : ∃ step ∈ steps, d ∈ step.given := by
  have hlast : ClassDescriptor.lastNamed? d.name (registered steps) = some d := by
    have hresolve := resolve_after empty steps d.name
    rw [resolve_name_of_mem h] at hresolve
    exact (hresolve.trans (Option.or_none ..)).symm
  obtain ⟨-, before, later, hregistered, -⟩ := ClassDescriptor.lastNamed?_eq_some_iff.mp hlast
  have hmem : d ∈ registered steps := by
    rw [hregistered]
    exact List.mem_append_right _ List.mem_cons_self
  obtain ⟨step, hstep, hd⟩ := List.mem_flatMap.mp hmem
  exact ⟨step, hstep, step.mem_given hd⟩

/-! ## Files -/

/-- What is read from the file that a registry has written: the registry, unless one of its defaults nests
    too deeply for a manifest. -/
theorem ofManifestFile_of_writeManifest (h : ∀ v ∈ registry.toManifest.defaults, v.Proper ∧ v.FloatFree)
    (hwrite : registry.writeManifest fs path = .ok written) :
    ofManifestFile written path =
      if ∀ v ∈ registry.toManifest.defaults, v.nesting + 5 ≤ Json.nestingLimit then .ok registry
      else .error (.json .tooDeep) := by
  have hfile : fs.writeFile path (Text.encode registry.manifestText) = .ok written := by
    unfold writeManifest at hwrite
    cases hchanged : fs.writeFile path (Text.encode registry.manifestText) with
    | error cause =>
      rw [hchanged] at hwrite
      exact absurd hwrite (by simp [Except.mapError])
    | ok changed =>
      rw [hchanged] at hwrite
      rw [Except.ok.inj hwrite]
  have hload : Manifest.load written path = Manifest.ofText registry.manifestText := by
    rw [Manifest.load, FileSystem.readText_writeFile hfile]
    simp only [Except.mapError, bind, Except.bind]
  rw [ofManifestFile, hload, manifestText, Manifest.ofText_pretty h]
  split
  · exact ofManifest_toManifest registry
  · rfl

/-- **What a history writes is read back** as the registry that wrote it, if no default nests deeper than
    five levels below the limit; otherwise reading gives up at the limit. Nothing else goes wrong. -/
theorem ofManifestFile_writeManifest
    (hparsed : ∀ step ∈ steps, ∀ d ∈ step.given, d.Parsed ∧ ∀ v ∈ d.defaults, v.FloatFree)
    (hwrite : (empty.after steps).writeManifest fs path = .ok written) :
    ofManifestFile written path =
      if ∀ v ∈ (empty.after steps).toManifest.defaults, v.nesting + 5 ≤ Json.nestingLimit then
        .ok (empty.after steps)
      else .error (.json .tooDeep) := by
  refine ofManifestFile_of_writeManifest (Manifest.forall_mem_defaults.mpr ?_) hwrite
  intro d hd v hv
  obtain ⟨step, hstep, hgiven⟩ := mem_given hd
  obtain ⟨hd, hfloat⟩ := hparsed step hstep d hgiven
  exact ⟨(hd.defaults v hv).1, hfloat v hv⟩

/-! ## Defaults that are too deep -/

/-- Lists in one another, one more than the number says, and nothing in the last. -/
def nestedLists : Nat → Value
  | 0 => .array []
  | count + 1 => .array [nestedLists count]

theorem nesting_nestedLists (count : Nat) : (nestedLists count).nesting = count + 1 := by
  induction count with
  | zero => rfl
  | succ count ih =>
    rw [nestedLists, Value.nesting, Json.itemsNesting, ih]
    simp [Json.itemsNesting]

theorem proper_nestedLists (count : Nat) : (nestedLists count).Proper ∧ (nestedLists count).FloatFree := by
  refine ⟨⟨by cases count <;> simp [nestedLists], ?_⟩, ?_⟩
  · induction count with
    | zero => exact Value.keysIncrease_array.mpr (by simp)
    | succ count ih => exact Value.keysIncrease_array.mpr (List.forall_mem_singleton.mpr ih)
  · induction count with
    | zero => exact Value.floatFree_array.mpr (by simp)
    | succ count ih => exact Value.floatFree_array.mpr (List.forall_mem_singleton.mpr ih)

/-- An annotation type with one element, whose default is so many lists in one another. -/
def listing (count : Nat) : ClassDescriptor :=
  ⟨"qual.A", .annotationType, none, none, [⟨"value", "Object", some (nestedLists count)⟩], []⟩

theorem parsed_listing {count : Nat} (h : count + 4 ≤ Json.nestingLimit) :
    (listing count).Parsed ∧ ∀ v ∈ (listing count).defaults, v.FloatFree := by
  have hdefaults : (listing count).defaults = [nestedLists count] := rfl
  have hproper := proper_nestedLists count
  rw [hdefaults, List.forall_mem_singleton]
  refine ⟨ClassDescriptor.parsed_of_defaults ?_ ?_, hproper.2⟩
  · rw [hdefaults, List.forall_mem_singleton]
    exact hproper
  · rw [hdefaults, List.forall_mem_singleton, nesting_nestedLists]
    omega

theorem descriptors_after_register (h : d.fault? = none) :
    (empty.after [.register d]).descriptors = [d] := by
  obtain ⟨changed, hchanged, hdescriptors⟩ := exists_register empty h
  show (empty.apply (.register d)).1.descriptors = [d]
  rw [apply, hchanged]
  exact hdescriptors

theorem defaults_after_listing (count : Nat) :
    (empty.after [.register (listing count)]).toManifest.defaults = [nestedLists count] := by
  have hname : Name.isQualified "qual.A" = true := by decide
  have hfault : (listing count).fault? = none :=
    ClassDescriptor.fault?_eq_none_iff.mpr ⟨hname, by simp [listing], by simp [listing]⟩
  rw [Manifest.defaults, toManifest, descriptors_after_register hfault]
  rfl

/-- Any registry can be written to a new file of the empty file system. -/
theorem exists_writeManifest (registry : Registry) :
    ∃ written, registry.writeManifest FileSystem.empty "m.json" = .ok written := by
  have hresolve : FileSystem.empty.resolve "m.json" = .ok (.vacant [] "m.json") := rfl
  have hname : isEntryName "m.json" = true := by decide
  unfold writeManifest FileSystem.writeFile
  rw [hresolve]
  simp only [hname, if_true]
  exact ⟨_, rfl⟩

/-- **A registry writes what cannot be read back**: lists that are 123 levels deep leave a descriptor its
    three levels, and a manifest not its five. -/
theorem writeManifest_deep :
    ((listing 122).Parsed ∧ ∀ v ∈ (listing 122).defaults, v.FloatFree) ∧
      ∃ written, (empty.after [.register (listing 122)]).writeManifest FileSystem.empty "m.json" =
          .ok written ∧
        ofManifestFile written "m.json" = .error (.json .tooDeep) := by
  obtain ⟨written, hwrite⟩ := exists_writeManifest (empty.after [.register (listing 122)])
  refine ⟨parsed_listing (by decide), written, hwrite, ?_⟩
  rw [ofManifestFile_of_writeManifest _ hwrite, defaults_after_listing]
  · rw [if_neg]
    rw [List.forall_mem_singleton, nesting_nestedLists]
    decide
  · rw [defaults_after_listing, List.forall_mem_singleton]
    exact proper_nestedLists 122

/-- One level less, and the file is read back. -/
theorem ofManifestFile_writeManifest_listing :
    ∃ written, (empty.after [.register (listing 121)]).writeManifest FileSystem.empty "m.json" = .ok written ∧
      ofManifestFile written "m.json" = .ok (empty.after [.register (listing 121)]) := by
  obtain ⟨written, hwrite⟩ := exists_writeManifest (empty.after [.register (listing 121)])
  refine ⟨written, hwrite, ?_⟩
  rw [ofManifestFile_writeManifest _ hwrite, defaults_after_listing]
  · rw [if_pos]
    rw [List.forall_mem_singleton, nesting_nestedLists]
    decide
  · intro step hstep d hd
    obtain rfl := List.mem_singleton.mp hstep
    obtain rfl := List.mem_singleton.mp hd
    exact parsed_listing (by decide)

end Registry

end QualifierDiscovery
