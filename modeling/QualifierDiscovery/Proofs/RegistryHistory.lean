import Mathlib.Data.Finset.Card
import Mathlib.Data.List.TakeWhile
import QualifierDiscovery.Proofs.Registry
import QualifierDiscovery.Proofs.Text.Order

/-!
# `Proofs.RegistryHistory` — what a registry holds after any history

Descriptors are registered singly, in lists or from manifests, and each of these steps can fail. What the
registry comes to is told by the descriptors that were registered, in their order: a name resolves to the
last of them that has it. The step lemma `resolve_apply` says what one step adds, and the run lemma
`resolve_after` follows by induction over the history.

## Contents
- **Faults.** `ClassDescriptor.Faultless` — what a descriptor without fault is like.
- **Registering.** `register_of_fault` and `exists_register` say all that a single registration can do;
  `registerAll_eq`, `withAll_eq` and `ofManifest_eq_ok_iff` do so for lists and manifests.
- **Equality.** `eq_of_resolve_eq` — a registry is determined by what it resolves; so its own manifest
  gives it again (`ofManifest_toManifest`).
- **Histories.** `resolve_after`, `size_after`, and `history_law` with all of it together.
-/

namespace QualifierDiscovery

/-! ## Descriptors without fault -/

namespace ClassDescriptor

variable {d : ClassDescriptor} {name : String}

/-- Nothing is wrong with the descriptor: its name is qualified, and its elements have names, no two the
    same. -/
structure Faultless (d : ClassDescriptor) : Prop where
  qualified : Name.isQualified d.name = true
  named : ∀ e ∈ d.elements, e.name ≠ ""
  distinct : (d.elements.map ElementDescriptor.name).Nodup

/-- A list of element names is in order if no name is empty, repeated or among those before. -/
theorem elementFault?_eq_none_iff {className : String} {before names : List String} :
    elementFault? className before names = none ↔
      (∀ name ∈ names, name ≠ "") ∧ names.Nodup ∧ ∀ name ∈ names, name ∉ before := by
  induction names generalizing before with
  | nil => simp [elementFault?]
  | cons name rest ih =>
    unfold elementFault?
    by_cases hempty : name = ""
    · simp [hempty]
    · by_cases hseen : name ∈ before
      · simp [hempty, hseen]
      · rw [if_neg (by simpa using hempty), if_neg (by simpa using hseen), ih, List.forall_mem_cons,
          List.forall_mem_cons, List.nodup_cons]
        constructor
        · rintro ⟨hnamed, hdistinct, hnew⟩
          exact ⟨⟨hempty, hnamed⟩, ⟨fun hmem => hnew name hmem List.mem_cons_self, hdistinct⟩, hseen,
            fun other hother hmem => hnew other hother (List.mem_cons_of_mem _ hmem)⟩
        · rintro ⟨⟨-, hnamed⟩, ⟨hfresh, hdistinct⟩, -, hnew⟩
          refine ⟨hnamed, hdistinct, fun other hother hmem => ?_⟩
          rcases List.mem_cons.mp hmem with rfl | hbefore
          · exact hfresh hother
          · exact hnew other hother hbefore

theorem fault?_eq_none_iff : d.fault? = none ↔ d.Faultless := by
  unfold fault?
  by_cases hname : Name.isQualified d.name = true
  · simp only [hname, if_true, elementFault?_eq_none_iff, List.forall_mem_map, List.not_mem_nil,
      not_false_eq_true, implies_true, and_true]
    exact ⟨fun h => ⟨hname, h.1, h.2⟩, fun h => ⟨h.named, h.distinct⟩⟩
  · simp only [hname, if_false, Bool.false_eq_true, reduceCtorEq, false_iff]
    exact fun h => hname h.qualified

/-- The last descriptor of a name in a list. -/
def lastNamed? (name : String) (ds : List ClassDescriptor) : Option ClassDescriptor :=
  ds.findRev? fun d => d.name == name

theorem lastNamed?_eq_reverse (ds : List ClassDescriptor) :
    lastNamed? name ds = ds.reverse.find? fun d => d.name == name := by
  unfold lastNamed?
  rw [List.findRev?_eq_findRev?TR]
  rfl

theorem lastNamed?_append (ds others : List ClassDescriptor) :
    lastNamed? name (ds ++ others) = (lastNamed? name others).or (lastNamed? name ds) := by
  rw [lastNamed?_eq_reverse, lastNamed?_eq_reverse, lastNamed?_eq_reverse, List.reverse_append,
    List.find?_append]

theorem lastNamed?_singleton (d : ClassDescriptor) :
    lastNamed? name [d] = if d.name = name then some d else none := by
  by_cases h : d.name = name <;> simp [lastNamed?, List.findRev?, h]

/-- What the last descriptor of a name is: it has the name, and no later one has. -/
theorem lastNamed?_eq_some_iff {ds : List ClassDescriptor} :
    lastNamed? name ds = some d ↔ d.name = name ∧
      ∃ before after, ds = before ++ d :: after ∧ ∀ later ∈ after, later.name ≠ name := by
  rw [lastNamed?_eq_reverse, List.find?_eq_some_iff_append]
  simp only [beq_iff_eq, Bool.not_eq_true', beq_eq_false_iff_ne, ne_eq]
  refine and_congr_right fun _ => ?_
  constructor
  · rintro ⟨after, before, hds, hafter⟩
    refine ⟨before.reverse, after.reverse, ?_, fun later hlater => hafter later (by simpa using hlater)⟩
    rw [← ds.reverse_reverse, hds]
    simp
  · rintro ⟨before, after, rfl, hafter⟩
    exact ⟨after.reverse, before.reverse, by simp, fun later hlater => hafter later (by simpa using hlater)⟩

theorem lastNamed?_eq_none_iff {ds : List ClassDescriptor} :
    lastNamed? name ds = none ↔ ∀ d ∈ ds, d.name ≠ name := by
  rw [lastNamed?_eq_reverse, List.find?_eq_none]
  simp

/-- Where no two have the same name, the last of a name is the first of it. -/
theorem lastNamed?_of_increasing {ds : List ClassDescriptor}
    (h : Text.IncreasingBy ClassDescriptor.name ds) :
    lastNamed? name ds = ds.find? fun d => d.name == name := by
  induction ds with
  | nil => rfl
  | cons first rest ih =>
    obtain ⟨hbelow, hrest⟩ := List.pairwise_cons.mp h
    rw [← List.singleton_append, lastNamed?_append, ih hrest, lastNamed?_singleton,
      List.find?_append, List.find?_singleton]
    by_cases hname : first.name = name
    · have hnone : rest.find? (fun d => d.name == name) = none := by
        rw [List.find?_eq_none]
        intro later hlater hsame
        have hless := hbelow later hlater
        rw [hname, beq_iff_eq.mp hsame] at hless
        exact String.lt_irrefl _ hless
      simp [hnone, hname]
    · simp [hname]

/-- The descriptor has no fault. -/
def isFaultless (d : ClassDescriptor) : Bool := d.fault?.isNone

theorem isFaultless_iff : d.isFaultless = true ↔ d.fault? = none := Option.isNone_iff_eq_none

theorem takeWhile_isFaultless_eq_self {ds : List ClassDescriptor} (h : ∀ d ∈ ds, d.fault? = none) :
    ds.takeWhile isFaultless = ds :=
  List.takeWhile_eq_self_iff.mpr fun d hd => isFaultless_iff.mpr (h d hd)

end ClassDescriptor

namespace Registry

open ClassDescriptor (lastNamed? isFaultless isFaultless_iff)

variable {registry changed : Registry} {d : ClassDescriptor} {ds : List ClassDescriptor} {name : String}

/-! ## Registering -/

/-- A faulty descriptor is refused with its fault. -/
theorem register_of_fault {fault : DescriptorFault} (h : d.fault? = some fault) :
    registry.register d = .error (.descriptor fault) := by
  unfold register
  split
  · next found hfound => rw [Option.some.inj (hfound.symm.trans h)]
  · next hnone => exact absurd (hnone.symm.trans h) (by simp)

/-- A descriptor without fault is put in the place of its name. -/
theorem exists_register (registry : Registry) (h : d.fault? = none) :
    ∃ changed, registry.register d = .ok changed ∧
      changed.descriptors = Text.putBy ClassDescriptor.name d registry.descriptors := by
  unfold register
  split
  · next found hfound => exact absurd (hfound.symm.trans h) (by simp)
  · exact ⟨_, rfl, rfl⟩

/-- **A registration changes what one name resolves to**, and nothing else. -/
theorem resolve_register (h : registry.register d = .ok changed) (name : String) :
    changed.resolve name = if d.name = name then some d else registry.resolve name := by
  cases hfault : d.fault? with
  | some fault =>
    rw [register_of_fault hfault] at h
    exact absurd h (by simp)
  | none =>
    obtain ⟨found, hfound, hdescriptors⟩ := registry.exists_register hfault
    obtain rfl : found = changed := Except.ok.inj (hfound.symm.trans h)
    rw [resolve, hdescriptors]
    exact Text.find?_putBy

theorem registerAll_cons_of_fault {fault : DescriptorFault} (h : d.fault? = some fault) :
    registry.registerAll (d :: ds) = (registry, some (.descriptor fault)) := by
  rw [registerAll, register_of_fault h]

theorem registerAll_cons (h : registry.register d = .ok changed) :
    registry.registerAll (d :: ds) = changed.registerAll ds := by
  rw [registerAll, h]

/-- **Registering a list registers its longest start without a fault**, one descriptor after the other,
    and fails with the fault that comes next, if there is one. By induction over the list. -/
theorem registerAll_eq (registry : Registry) (ds : List ClassDescriptor) :
    (ds.takeWhile isFaultless).foldlM register registry = .ok (registry.registerAll ds).1 ∧
      (registry.registerAll ds).2 = (ds.findSome? ClassDescriptor.fault?).map .descriptor := by
  induction ds generalizing registry with
  | nil => exact ⟨rfl, rfl⟩
  | cons d rest ih =>
    cases hfault : d.fault? with
    | some fault =>
      have hstop : isFaultless d = false := by simp [isFaultless, hfault]
      rw [registerAll_cons_of_fault hfault, List.takeWhile_cons, List.findSome?_cons, hfault, hstop]
      exact ⟨rfl, rfl⟩
    | none =>
      obtain ⟨changed, hchanged, -⟩ := registry.exists_register hfault
      rw [registerAll_cons hchanged, List.takeWhile_cons_of_pos (isFaultless_iff.mpr hfault),
        List.findSome?_cons, hfault, List.foldlM_cons, hchanged]
      exact ih changed

theorem resolve_registerAll (registry : Registry) (ds : List ClassDescriptor) (name : String) :
    (registry.registerAll ds).1.resolve name =
      (lastNamed? name (ds.takeWhile isFaultless)).or (registry.resolve name) := by
  induction ds generalizing registry with
  | nil => rfl
  | cons d rest ih =>
    cases hfault : d.fault? with
    | some fault =>
      have hstop : isFaultless d = false := by simp [isFaultless, hfault]
      rw [registerAll_cons_of_fault hfault, List.takeWhile_cons, hstop]
      rfl
    | none =>
      obtain ⟨changed, hchanged, -⟩ := registry.exists_register hfault
      rw [registerAll_cons hchanged, ih, resolve_register hchanged,
        List.takeWhile_cons_of_pos (isFaultless_iff.mpr hfault), ← List.singleton_append,
        ClassDescriptor.lastNamed?_append, ClassDescriptor.lastNamed?_singleton, Option.or_assoc]
      by_cases hname : d.name = name <;> simp [hname]

/-- A list is registered as a whole if none of its descriptors is faulty, and otherwise its first fault is
    the failure. -/
theorem withAll_eq (registry : Registry) (ds : List ClassDescriptor) :
    registry.withAll ds =
      match ds.findSome? ClassDescriptor.fault? with
      | some fault => .error (.descriptor fault)
      | none => .ok (registry.registerAll ds).1 := by
  have hfailure := (registerAll_eq registry ds).2
  unfold withAll
  cases hfault : ds.findSome? ClassDescriptor.fault? with
  | some fault =>
    rw [hfault] at hfailure
    split
    · next hnone => exact absurd (hnone ▸ hfailure) (by simp)
    · next failure hsome => rw [hsome] at hfailure; rw [Option.some.inj hfailure]
  | none =>
    rw [hfault] at hfailure
    split
    · next loaded hnone => rw [hnone]
    · next failure hsome => exact absurd (hsome ▸ hfailure) (by simp)

theorem withAll_eq_ok_iff {loaded : Registry} :
    registry.withAll ds = .ok loaded ↔
      (∀ d ∈ ds, d.fault? = none) ∧ loaded = (registry.registerAll ds).1 := by
  rw [withAll_eq, ← List.findSome?_eq_none_iff]
  cases ds.findSome? ClassDescriptor.fault? with
  | some fault => simp
  | none => simp [eq_comm]

/-- **A manifest gives a registry if none of its descriptors is faulty**, with the descriptors in it. -/
theorem ofManifest_eq_ok_iff {manifest : Manifest} {loaded : Registry} :
    ofManifest manifest = .ok loaded ↔
      (∀ d ∈ manifest.descriptors, d.fault? = none) ∧
        loaded = (empty.registerAll manifest.descriptors).1 :=
  withAll_eq_ok_iff

/-! ## Equality -/

theorem resolve_eq_none_iff :
    registry.resolve name = none ↔ ∀ d ∈ registry.descriptors, d.name ≠ name := by
  unfold resolve
  rw [List.find?_eq_none]
  simp

theorem nodup_names (registry : Registry) : (registry.descriptors.map ClassDescriptor.name).Nodup :=
  registry.sorted.nodup_keys

theorem resolve_name_of_mem (h : d ∈ registry.descriptors) : registry.resolve d.name = some d := by
  cases hresolve : registry.resolve d.name with
  | none => exact absurd rfl (resolve_eq_none_iff.mp hresolve d h)
  | some found =>
    have hname := registry.resolve_keyed _ _ hresolve
    exact congrArg some (List.inj_on_of_nodup_map registry.nodup_names (mem_of_resolve hresolve) h hname)

/-- **A registry is determined by what it resolves.** -/
theorem eq_of_resolve_eq {other : Registry} (h : ∀ name, registry.resolve name = other.resolve name) :
    registry = other := by
  have hdescriptors : registry.descriptors = other.descriptors := by
    refine registry.sorted.eq_of_mem_iff other.sorted fun d => ⟨fun hd => ?_, fun hd => ?_⟩
    · exact mem_of_resolve ((h d.name).symm.trans (resolve_name_of_mem hd))
    · exact mem_of_resolve ((h d.name).trans (resolve_name_of_mem hd))
  cases registry
  cases other
  cases hdescriptors
  rfl

/-- What a registry exports gives the registry again. -/
theorem ofManifest_toManifest (registry : Registry) : ofManifest registry.toManifest = .ok registry := by
  refine ofManifest_eq_ok_iff.mpr ⟨registry.faultless, eq_of_resolve_eq fun name => ?_⟩
  rw [resolve_registerAll, toManifest, ClassDescriptor.takeWhile_isFaultless_eq_self registry.faultless,
    ClassDescriptor.lastNamed?_of_increasing registry.sorted]
  exact (Option.or_none ..).symm

/-! ## Histories -/

/-- A change of a registry. The descriptors of a manifest are first loaded into a registry of their
    own. -/
inductive Step
  | register (d : ClassDescriptor)
  | registerAll (ds : List ClassDescriptor)
  | load (manifest : Manifest)

/-- The registry after a step, and the step's failure. -/
def apply (registry : Registry) : Step → Registry × Option LoadError
  | .register d =>
    match registry.register d with
    | .ok changed => (changed, none)
    | .error failure => (registry, some failure)
  | .registerAll ds => registry.registerAll ds
  | .load manifest =>
    match ofManifest manifest with
    | .ok loaded => registry.registerAll loaded.toManifest.descriptors
    | .error failure => (registry, some failure)

/-- The registry after steps, whether they fail or not. -/
def after (registry : Registry) (steps : List Step) : Registry :=
  steps.foldl (fun registry step => (registry.apply step).1) registry

/-- The descriptors that a step registers: of a list those before the first faulty one, of a manifest
    all or none. -/
def Step.registered : Step → List ClassDescriptor
  | .register d => [d].filter isFaultless
  | .registerAll ds => ds.takeWhile isFaultless
  | .load manifest => if manifest.descriptors.all isFaultless then manifest.descriptors else []

/-- The descriptors registered in the course of a history. -/
def registered (steps : List Step) : List ClassDescriptor := steps.flatMap Step.registered

/-- A descriptor without fault is always registered, and a faulty one never changes anything. -/
theorem apply_register (registry : Registry) (d : ClassDescriptor) :
    match d.fault? with
    | some fault => registry.apply (.register d) = (registry, some (.descriptor fault))
    | none => ∃ changed, registry.register d = .ok changed ∧
        registry.apply (.register d) = (changed, none) := by
  cases hfault : d.fault? with
  | some fault =>
    show registry.apply (.register d) = _
    rw [apply, register_of_fault hfault]
  | none =>
    obtain ⟨changed, hchanged, -⟩ := registry.exists_register hfault
    exact ⟨changed, hchanged, by rw [apply, hchanged]⟩

/-- A manifest registers all its descriptors, the last of each name, or none. -/
theorem resolve_apply_load (registry : Registry) (manifest : Manifest) (name : String) :
    (registry.apply (.load manifest)).1.resolve name =
      (lastNamed? name (Step.load manifest).registered).or (registry.resolve name) := by
  simp only [apply, Step.registered]
  cases hload : ofManifest manifest with
  | error failure =>
    have hfaulty : ¬ manifest.descriptors.all isFaultless = true := by
      intro hall
      have hok := ofManifest_eq_ok_iff.mpr
        ⟨fun d hd => isFaultless_iff.mp (List.all_eq_true.mp hall d hd), rfl⟩
      exact absurd (hload.symm.trans hok) (by simp)
    rw [if_neg hfaulty]
    rfl
  | ok loaded =>
    obtain ⟨hfaultless, hloaded⟩ := ofManifest_eq_ok_iff.mp hload
    have hall : manifest.descriptors.all isFaultless = true :=
      List.all_eq_true.mpr fun d hd => isFaultless_iff.mpr (hfaultless d hd)
    -- the loaded registry resolves a name to the last in the manifest, and holds no name twice
    have hresolve := resolve_registerAll empty manifest.descriptors name
    rw [← hloaded, ClassDescriptor.takeWhile_isFaultless_eq_self hfaultless] at hresolve
    rw [if_pos hall, resolve_registerAll, toManifest,
      ClassDescriptor.takeWhile_isFaultless_eq_self loaded.faultless,
      ClassDescriptor.lastNamed?_of_increasing loaded.sorted]
    show (loaded.resolve name).or _ = _
    rw [hresolve]
    exact congrArg (Option.or · _) (Option.or_none ..)

/-- **What a step adds**: a name resolves to the last descriptor registered by the step that has it, and
    otherwise to what it did before. -/
theorem resolve_apply (registry : Registry) (step : Step) (name : String) :
    (registry.apply step).1.resolve name =
      (lastNamed? name step.registered).or (registry.resolve name) := by
  cases step with
  | registerAll ds => exact resolve_registerAll registry ds name
  | load manifest => exact resolve_apply_load registry manifest name
  | register d =>
    have happly := apply_register registry d
    cases hfault : d.fault? with
    | some fault =>
      rw [hfault] at happly
      have hstop : isFaultless d = false := by simp [isFaultless, hfault]
      rw [show registry.apply (.register d) = _ from happly, Step.registered, List.filter_singleton, hstop]
      rfl
    | none =>
      rw [hfault] at happly
      obtain ⟨changed, hchanged, happly⟩ := happly
      rw [happly, resolve_register hchanged, Step.registered, List.filter_singleton,
        isFaultless_iff.mpr hfault]
      show _ = (lastNamed? name [d]).or _
      rw [ClassDescriptor.lastNamed?_singleton]
      by_cases hname : d.name = name <;> simp [hname]

/-- **What a history comes to.** By induction over its steps, each of them by `resolve_apply`. -/
theorem resolve_after (registry : Registry) (steps : List Step) (name : String) :
    (registry.after steps).resolve name =
      (lastNamed? name (registered steps)).or (registry.resolve name) := by
  induction steps generalizing registry with
  | nil => rfl
  | cons step rest ih =>
    show ((registry.apply step).1.after rest).resolve name = _
    have hregistered : registered (step :: rest) = step.registered ++ registered rest :=
      List.flatMap_cons
    rw [ih, resolve_apply, hregistered, ClassDescriptor.lastNamed?_append, Option.or_assoc]

/-- A registry has as many descriptors as names were registered. -/
theorem size_after (steps : List Step) :
    (empty.after steps).size = ((registered steps).map ClassDescriptor.name).toFinset.card := by
  -- a name is in the registry if it resolves, and it resolves if it was registered
  have hnames : ∀ name, name ∈ (empty.after steps).descriptors.map ClassDescriptor.name ↔
      name ∈ (registered steps).map ClassDescriptor.name := by
    intro name
    have hresolve := resolve_after empty steps name
    have hnone : (empty.after steps).resolve name = none ↔ lastNamed? name (registered steps) = none := by
      rw [hresolve]
      exact Eq.congr_left (Option.or_none ..)
    rw [resolve_eq_none_iff, ClassDescriptor.lastNamed?_eq_none_iff] at hnone
    have hsome := not_congr hnone
    simpa using hsome
  rw [size, ← List.length_map (f := ClassDescriptor.name), ← List.toFinset_card_of_nodup (nodup_names _)]
  congr 1
  ext name
  rw [List.mem_toFinset, List.mem_toFinset, hnames]

/-- **The history law.** On any registry a faulty descriptor is refused and changes nothing; a list is
    registered up to its first faulty descriptor, whose fault is the failure; a manifest with a faulty
    descriptor gives no registry. After any history from the empty registry, a name resolves to the last
    descriptor that was registered under it, if any; what it resolves to has the name and is without
    fault; and the registry has as many descriptors as different names were registered. -/
theorem history_law (registry : Registry) (steps : List Step) :
    (∀ d fault, d.fault? = some fault →
      registry.apply (.register d) = (registry, some (.descriptor fault))) ∧
    (∀ ds, (ds.takeWhile isFaultless).foldlM register registry =
        .ok (registry.apply (.registerAll ds)).1 ∧
      (registry.apply (.registerAll ds)).2 =
        (ds.findSome? ClassDescriptor.fault?).map .descriptor) ∧
    (∀ manifest, (∃ loaded, ofManifest manifest = .ok loaded) ↔
      ∀ d ∈ manifest.descriptors, d.fault? = none) ∧
    (∀ name d, (empty.after steps).resolve name = some d ↔ d.name = name ∧
      ∃ before after, registered steps = before ++ d :: after ∧ ∀ later ∈ after, later.name ≠ name) ∧
    (∀ name, (empty.after steps).resolve name = none ↔ ∀ d ∈ registered steps, d.name ≠ name) ∧
    (∀ name d, (empty.after steps).resolve name = some d → d.name = name ∧ d.Faultless) ∧
    (empty.after steps).size = ((registered steps).map ClassDescriptor.name).toFinset.card := by
  have hresolve : ∀ name, (empty.after steps).resolve name = lastNamed? name (registered steps) :=
    fun name => (resolve_after empty steps name).trans (Option.or_none ..)
  refine ⟨?_, registerAll_eq registry, ?_, ?_, ?_, ?_, size_after steps⟩
  · intro d fault hfault
    have happly := apply_register registry d
    rwa [hfault] at happly
  · intro manifest
    simp only [ofManifest_eq_ok_iff, exists_and_left, exists_eq, and_true]
  · intro name d
    rw [hresolve, ClassDescriptor.lastNamed?_eq_some_iff]
  · intro name
    rw [hresolve, ClassDescriptor.lastNamed?_eq_none_iff]
  · intro name d hd
    have hfaultless := (empty.after steps).faultless d (mem_of_resolve hd)
    exact ⟨resolve_keyed _ name d hd, ClassDescriptor.fault?_eq_none_iff.mp hfaultless⟩

end Registry

end QualifierDiscovery
