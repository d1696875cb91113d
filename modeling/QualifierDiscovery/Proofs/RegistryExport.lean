import QualifierDiscovery.Proofs.RegistryHistory

/-!
# `Proofs.RegistryExport` — the manifest of a registry is canonical

What a registry exports depends on what it resolves and on nothing else: not on the steps that filled it, and
not on the order in which its descriptors are gone through before they are sorted (`sortedBy_listing_eq`).
So two histories export the same exactly if they resolve the same, the export gives the registry again,
and descriptors with different names can be registered in any order.

## Contents
- **Exports.** `mem_toManifest_iff` and `toManifest_eq_iff` — an export and what resolves tell the same.
- **Orders of registration.** `lastNamed?_eq_of_perm` — among different names there is no later one; so
  `after_register_eq_of_perm` one by one, and `withAll_eq_of_perm` for a whole list.
- **`export_canonical`** with all of it, for every two histories.
-/

namespace QualifierDiscovery

/-! ## Different names -/

namespace ClassDescriptor

variable {ds others : List ClassDescriptor} {d : ClassDescriptor} {name : String}

/-- Where no two have the same name, the last of a name is whichever has it. -/
theorem lastNamed?_eq_some_iff_mem (h : (ds.map ClassDescriptor.name).Nodup) :
    lastNamed? name ds = some d ↔ d ∈ ds ∧ d.name = name := by
  rw [lastNamed?_eq_some_iff]
  constructor
  · rintro ⟨hname, before, after, rfl, -⟩
    exact ⟨by simp, hname⟩
  · rintro ⟨hd, rfl⟩
    obtain ⟨before, after, rfl⟩ := List.append_of_mem hd
    refine ⟨rfl, before, after, rfl, fun later hlater hsame => ?_⟩
    rw [List.map_append, List.map_cons, List.nodup_append, List.nodup_cons] at h
    exact h.2.1.1 (hsame ▸ List.mem_map_of_mem hlater)

/-- The order of descriptors with different names does not matter. -/
theorem lastNamed?_eq_of_perm (hperm : ds.Perm others)
    (h : (ds.map ClassDescriptor.name).Nodup) : lastNamed? name ds = lastNamed? name others := by
  have hothers : (others.map ClassDescriptor.name).Nodup := (hperm.map _).nodup_iff.mp h
  apply Option.ext
  intro d
  rw [lastNamed?_eq_some_iff_mem h, lastNamed?_eq_some_iff_mem hothers, hperm.mem_iff]

end ClassDescriptor

namespace Registry

open ClassDescriptor (lastNamed? isFaultless isFaultless_iff)

variable {registry other : Registry} {d : ClassDescriptor} {ds others listing : List ClassDescriptor}

/-! ## Exports -/

/-- An export holds what resolves, and nothing else. -/
theorem mem_toManifest_iff :
    d ∈ registry.toManifest.descriptors ↔ ∃ name, registry.resolve name = some d := by
  constructor
  · intro hd
    exact ⟨d.name, resolve_name_of_mem hd⟩
  · rintro ⟨name, hname⟩
    exact mem_of_resolve hname

/-- **Two registries export the same exactly if every name resolves alike in both.** -/
theorem toManifest_eq_iff :
    registry.toManifest = other.toManifest ↔ ∀ name, registry.resolve name = other.resolve name := by
  constructor
  · intro h name
    have hdescriptors : registry.descriptors = other.descriptors := congrArg Manifest.descriptors h
    rw [resolve, resolve, hdescriptors]
  · intro h
    rw [eq_of_resolve_eq h]

/-- However the descriptors of a registry are gone through, sorting them by their names gives its export. -/
theorem sortedBy_listing_eq (hnodup : listing.Nodup)
    (hlisting : ∀ d, d ∈ listing ↔ ∃ name, registry.resolve name = some d) :
    Text.sortedBy ClassDescriptor.name listing = registry.toManifest.descriptors := by
  have hexport : registry.toManifest.descriptors.Nodup := registry.nodup_names.of_map
  have hperm : listing.Perm registry.toManifest.descriptors := by
    rw [List.perm_ext_iff_of_nodup hnodup hexport]
    intro d
    rw [hlisting, mem_toManifest_iff]
  have hkey : ∀ a ∈ listing, ∀ b ∈ listing, a.name = b.name → a = b := by
    intro a ha b hb hsame
    exact List.inj_on_of_nodup_map registry.nodup_names (hperm.mem_iff.mp ha) (hperm.mem_iff.mp hb) hsame
  rw [Text.sortedBy_eq_of_perm hperm hkey]
  exact Text.sortedBy_eq_self registry.sorted

/-! ## Orders of registration -/

theorem registered_map_register (ds : List ClassDescriptor) :
    registered (ds.map .register) = ds.filter isFaultless := by
  induction ds with
  | nil => rfl
  | cons d rest ih =>
    have hcons : registered ((d :: rest).map .register) =
        [d].filter isFaultless ++ registered (rest.map .register) := List.flatMap_cons
    rw [hcons, ih, ← List.filter_append, List.singleton_append]

/-- **Descriptors with different names are registered one by one in any order**, the faulty ones among them
    refused in any. -/
theorem after_register_eq_of_perm (registry : Registry) (hperm : ds.Perm others)
    (hnames : (ds.map ClassDescriptor.name).Nodup) :
    registry.after (ds.map .register) = registry.after (others.map .register) := by
  apply eq_of_resolve_eq
  intro name
  have hfilter : ((ds.filter isFaultless).map ClassDescriptor.name).Nodup :=
    hnames.sublist (List.filter_sublist.map _)
  rw [resolve_after, resolve_after, registered_map_register, registered_map_register,
    ClassDescriptor.lastNamed?_eq_of_perm (hperm.filter _) hfilter]

/-- **A list of descriptors with different names is registered as a whole in any order**, or refused in
    any. -/
theorem withAll_eq_of_perm (registry : Registry) (hperm : ds.Perm others)
    (hnames : (ds.map ClassDescriptor.name).Nodup) :
    (registry.withAll ds).toOption = (registry.withAll others).toOption := by
  by_cases hfaultless : ∀ d ∈ ds, d.fault? = none
  · have hothers : ∀ d ∈ others, d.fault? = none := fun d hd => hfaultless d (hperm.mem_iff.mpr hd)
    have hsame : (registry.registerAll ds).1 = (registry.registerAll others).1 := by
      apply eq_of_resolve_eq
      intro name
      rw [resolve_registerAll, resolve_registerAll,
        ClassDescriptor.takeWhile_isFaultless_eq_self hfaultless,
        ClassDescriptor.takeWhile_isFaultless_eq_self hothers,
        ClassDescriptor.lastNamed?_eq_of_perm hperm hnames]
    rw [withAll_eq_ok_iff.mpr ⟨hfaultless, rfl⟩, withAll_eq_ok_iff.mpr ⟨hothers, rfl⟩, hsame]
  · have hnone : ∀ list : List ClassDescriptor, (¬ ∀ d ∈ list, d.fault? = none) →
        (registry.withAll list).toOption = none := by
      intro list hlist
      cases hall : registry.withAll list with
      | error failure => rfl
      | ok loaded => exact absurd (withAll_eq_ok_iff.mp hall).1 hlist
    rw [hnone ds hfaultless, hnone others]
    exact fun hothers => hfaultless fun d hd => hothers d (hperm.mem_iff.mp hd)

/-- Descriptors without fault, all of different names, are exported sorted by their names. -/
theorem exists_ofManifest_sortedBy (hfaultless : ∀ d ∈ ds, d.Faultless)
    (hnames : (ds.map ClassDescriptor.name).Nodup) :
    ∃ loaded, ofManifest ⟨ds⟩ = .ok loaded ∧
      loaded.toManifest = ⟨Text.sortedBy ClassDescriptor.name ds⟩ := by
  have hfault : ∀ d ∈ ds, d.fault? = none := fun d hd =>
    ClassDescriptor.fault?_eq_none_iff.mpr (hfaultless d hd)
  refine ⟨_, ofManifest_eq_ok_iff.mpr ⟨hfault, rfl⟩, congrArg Manifest.mk ?_⟩
  refine (sortedBy_listing_eq hnames.of_map fun d => ?_).symm
  have hresolve : ∀ name, (empty.registerAll ds).1.resolve name = lastNamed? name ds := by
    intro name
    rw [resolve_registerAll, ClassDescriptor.takeWhile_isFaultless_eq_self hfault]
    exact Option.or_none ..
  simp only [hresolve, ClassDescriptor.lastNamed?_eq_some_iff_mem hnames]
  exact ⟨fun hd => ⟨d.name, hd, rfl⟩, fun ⟨_, hd, _⟩ => hd⟩

/-! ## Any two histories -/

/-- **Exports are canonical.** Two histories export the same exactly if every name resolves alike after them.
    An export has strictly increasing names and holds what resolves, and it is what sorting gives from any
    other order of the same descriptors. Importing it succeeds, and every name resolves as before. And
    the descriptors of a manifest, if no two have the same name, can come in any order: imported, or
    registered after a history as a whole or one by one, they are refused in any order or give one
    registry, which exports them sorted by their names if there was nothing before them. -/
theorem export_canonical (steps others : List Step) :
    ((empty.after steps).toManifest = (empty.after others).toManifest ↔
      ∀ name, (empty.after steps).resolve name = (empty.after others).resolve name) ∧
    Text.IncreasingBy ClassDescriptor.name (empty.after steps).toManifest.descriptors ∧
    (∀ d, d ∈ (empty.after steps).toManifest.descriptors ↔
      ∃ name, (empty.after steps).resolve name = some d) ∧
    (∀ listing : List ClassDescriptor, listing.Nodup →
      (∀ d, d ∈ listing ↔ ∃ name, (empty.after steps).resolve name = some d) →
        Text.sortedBy ClassDescriptor.name listing = (empty.after steps).toManifest.descriptors) ∧
    (∃ loaded, ofManifest (empty.after steps).toManifest = .ok loaded ∧
      ∀ name, loaded.resolve name = (empty.after steps).resolve name) ∧
    ∀ ds ds' : List ClassDescriptor, ds.Perm ds' → (ds.map ClassDescriptor.name).Nodup →
      (ofManifest ⟨ds⟩).toOption = (ofManifest ⟨ds'⟩).toOption ∧
      ((empty.after steps).withAll ds).toOption = ((empty.after steps).withAll ds').toOption ∧
      (empty.after steps).after (ds.map .register) = (empty.after steps).after (ds'.map .register) ∧
      ((∀ d ∈ ds, d.Faultless) → ∃ loaded, ofManifest ⟨ds'⟩ = .ok loaded ∧
        loaded.toManifest = ⟨Text.sortedBy ClassDescriptor.name ds⟩) := by
  refine ⟨toManifest_eq_iff, (empty.after steps).sorted, fun d => mem_toManifest_iff,
    fun listing hnodup hlisting => sortedBy_listing_eq hnodup hlisting,
    ⟨_, ofManifest_toManifest _, fun name => rfl⟩, ?_⟩
  intro ds ds' hperm hnames
  refine ⟨withAll_eq_of_perm empty hperm hnames, withAll_eq_of_perm _ hperm hnames,
    after_register_eq_of_perm _ hperm hnames, ?_⟩
  intro hfaultless
  obtain ⟨loaded, hloaded, hexport⟩ := exists_ofManifest_sortedBy hfaultless hnames
  have hsame : (ofManifest ⟨ds⟩).toOption = (ofManifest ⟨ds'⟩).toOption :=
    withAll_eq_of_perm empty hperm hnames
  rw [hloaded] at hsame
  cases hload' : ofManifest ⟨ds'⟩ with
  | error failure =>
    rw [hload'] at hsame
    exact absurd hsame (by simp [Except.toOption])
  | ok loaded' =>
    rw [hload'] at hsame
    exact ⟨loaded', rfl, Option.some.inj hsame ▸ hexport⟩

/-- The built-in descriptors can be imported backwards. -/
theorem export_canonical_builtins :
    (∀ d ∈ builtins, d.Faultless) ∧
      (empty.withAll builtins).toOption = (empty.withAll builtins.reverse).toOption ∧
      ∃ loaded, ofManifest ⟨builtins.reverse⟩ = .ok loaded ∧
        loaded.toManifest = ⟨Text.sortedBy ClassDescriptor.name builtins⟩ := by
  have hfaultless : ∀ d ∈ builtins, d.Faultless := fun d hd =>
    ClassDescriptor.fault?_eq_none_iff.mp (fault?_of_mem_builtins d hd)
  have hperm : builtins.Perm builtins.reverse := (List.reverse_perm builtins).symm
  have hnames : (builtins.map ClassDescriptor.name).Nodup := by decide
  obtain ⟨-, -, -, -, -, horders⟩ := export_canonical [] []
  obtain ⟨-, hwhole, -, hexport⟩ := horders builtins builtins.reverse hperm hnames
  exact ⟨hfaultless, hwhole, hexport hfaultless⟩

end Registry

end QualifierDiscovery
