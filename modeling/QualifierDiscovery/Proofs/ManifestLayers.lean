import QualifierDiscovery.Proofs.Files.Writing
import QualifierDiscovery.Proofs.Manifests
import QualifierDiscovery.Proofs.RegistryHistory

/-!
# `Proofs.ManifestLayers` — a registry that is loaded from several manifest files

The files are put on top of the built-in descriptors, one layer after the other. Each file is accepted or
refused for itself, whatever was loaded before it (`addManifests_cons_of_ok`,
`addManifests_cons_of_error`), and what files that hold manifests come to is what their descriptors come to as
one list (`addManifests_of_describes`). So the cuts between the files do not matter, and a name is told by the
last descriptor that has it.

## Contents
- **One file.** `Manifest.Describes`, `Manifest.Provided` and `Manifest.Refused` — what can be wrong with it
  and that nothing else can (`ofManifestFile_eq_error_iff`, `exists_ofManifestFile_iff`).
- **Layers.** `addManifests_eq_error_iff` — the earliest refused file gives the failure;
  `load_of_describes` — layers as one list.
- **Orders of layers.** `Manifest.Apart` and `lastNamed?_flatten_eq_some_iff` — layers without a common name
  do not hide each other; so `load_eq_of_perm`.
- **`load_layers`** with all of it, for every list of files.
-/

namespace QualifierDiscovery

open ClassDescriptor (lastNamed?)

variable {fs : FileSystem} {path : String} {paths others : List String} {ds : List ClassDescriptor}
  {contents : List (List ClassDescriptor)} {failure : LoadError}

/-! ## One file -/

namespace Manifest

/-- The file is read as a text, and the text as a manifest of these descriptors. -/
def Describes (fs : FileSystem) (path : String) (ds : List ClassDescriptor) : Prop :=
  ∃ text, fs.readText path = .ok text ∧ ofText text = .ok ⟨ds⟩

/-- The file holds a manifest without a fault. -/
def Provided (fs : FileSystem) (path : String) : Prop :=
  ∃ ds, Describes fs path ds ∧ ∀ d ∈ ds, d.Faultless

/-- Why a file is refused: it cannot be read as a text, the text is no manifest, or one of the descriptors is
    faulty, of which the first counts. -/
inductive Refused (fs : FileSystem) (path : String) : LoadError → Prop
  | unreadable {cause : FileError} (h : fs.readText path = .error cause) : Refused fs path (.file cause)
  | malformed {text : String} {failure : LoadError} (htext : fs.readText path = .ok text)
    (h : ofText text = .error failure) : Refused fs path failure
  | faulty {before after : List ClassDescriptor} {d : ClassDescriptor} {fault : DescriptorFault}
    (hdescribes : Describes fs path (before ++ d :: after)) (hbefore : ∀ earlier ∈ before, earlier.Faultless)
    (hfault : d.fault? = some fault) : Refused fs path (.descriptor fault)

theorem load_eq_ok_iff {manifest : Manifest} :
    load fs path = .ok manifest ↔ Describes fs path manifest.descriptors := by
  unfold load Describes
  cases htext : fs.readText path with
  | error cause => simp [Except.mapError, bind, Except.bind]
  | ok text => simp [Except.mapError, bind, Except.bind]

theorem load_of_describes (h : Describes fs path ds) : load fs path = .ok ⟨ds⟩ :=
  load_eq_ok_iff.mpr h

theorem load_eq_error_iff :
    load fs path = .error failure ↔
      (∃ cause, fs.readText path = .error cause ∧ failure = .file cause) ∨
        ∃ text, fs.readText path = .ok text ∧ ofText text = .error failure := by
  unfold load
  cases htext : fs.readText path with
  | error cause => simp [Except.mapError, bind, Except.bind, eq_comm]
  | ok text => simp [Except.mapError, bind, Except.bind]

/-- A file holds one list of descriptors at most. -/
theorem Describes.unique {ds' : List ClassDescriptor} (h : Describes fs path ds)
    (h' : Describes fs path ds') : ds = ds' := by
  obtain ⟨text, htext, hds⟩ := h
  obtain ⟨text', htext', hds'⟩ := h'
  obtain rfl := Except.ok.inj (htext.symm.trans htext')
  exact congrArg Manifest.descriptors (Except.ok.inj (hds.symm.trans hds'))

/-- A file that was written for a manifest without defaults holds that manifest. -/
theorem describes_of_readFile {m : Manifest} (hread : fs.readFile path = .ok (Text.encode m.toJson.pretty))
    (hdefaults : m.defaults = []) : Describes fs path m.descriptors := by
  refine ⟨m.toJson.pretty, FileSystem.readText_of_readFile hread, ?_⟩
  rw [ofText_pretty (by simp [hdefaults]), if_pos (by simp [hdefaults])]

/-- No descriptor of one file has the name of one in the other. -/
def Apart (fs : FileSystem) (path other : String) : Prop :=
  ∀ ds es, Describes fs path ds → Describes fs other es → ∀ d ∈ ds, ∀ e ∈ es, d.name ≠ e.name

theorem Apart.symm {other : String} (h : Apart fs path other) : Apart fs other path :=
  fun _ _ hes hds e he d hd hsame => h _ _ hds hes d hd e he hsame.symm

end Manifest

namespace Registry

open Manifest (Describes Provided Refused Apart)

variable {registry : Registry} {name : String}

theorem withAll_cons (registry : Registry) (d : ClassDescriptor) (ds : List ClassDescriptor) :
    registry.withAll (d :: ds) = registry.register d >>= fun changed => changed.withAll ds := by
  rw [withAll, registerAll]
  cases registry.register d with
  | error failure => rfl
  | ok changed => rfl

theorem withAll_append (registry : Registry) (ds es : List ClassDescriptor) :
    registry.withAll (ds ++ es) = registry.withAll ds >>= fun changed => changed.withAll es := by
  induction ds generalizing registry with
  | nil => rfl
  | cons d rest ih =>
    rw [List.cons_append, withAll_cons, withAll_cons]
    cases registry.register d with
    | error failure => rfl
    | ok changed => exact ih changed

/-- Whether a list is registered does not depend on what was there before. -/
theorem exists_withAll_iff (registry : Registry) :
    (∃ changed, registry.withAll ds = .ok changed) ↔ ∀ d ∈ ds, d.Faultless := by
  simp only [withAll_eq_ok_iff, ClassDescriptor.fault?_eq_none_iff, exists_and_left, exists_eq, and_true]

/-- Nor does the failure: it is the first fault of the list. -/
theorem withAll_eq_error_iff :
    registry.withAll ds = .error failure ↔
      ∃ before d after fault, ds = before ++ d :: after ∧ (∀ earlier ∈ before, earlier.Faultless) ∧
        d.fault? = some fault ∧ failure = .descriptor fault := by
  rw [withAll_eq]
  constructor
  · intro h
    cases hfault : ds.findSome? ClassDescriptor.fault? with
    | none =>
      rw [hfault] at h
      exact absurd h (by simp)
    | some fault =>
      rw [hfault] at h
      obtain ⟨before, d, after, hds, hd, hbefore⟩ := List.findSome?_eq_some_iff.mp hfault
      exact ⟨before, d, after, fault, hds,
        fun earlier hearlier => ClassDescriptor.fault?_eq_none_iff.mp (hbefore earlier hearlier), hd,
        (Except.error.inj h).symm⟩
  · rintro ⟨before, d, after, fault, hds, hbefore, hd, rfl⟩
    have hfault : ds.findSome? ClassDescriptor.fault? = some fault :=
      List.findSome?_eq_some_iff.mpr ⟨before, d, after, hds, hd,
        fun earlier hearlier => ClassDescriptor.fault?_eq_none_iff.mpr (hbefore earlier hearlier)⟩
    rw [hfault]

/-- A file gives a registry of its own exactly if it holds a manifest without a fault. -/
theorem exists_ofManifestFile_iff : (∃ loaded, ofManifestFile fs path = .ok loaded) ↔ Provided fs path := by
  constructor
  · rintro ⟨loaded, hloaded⟩
    rw [ofManifestFile] at hloaded
    cases hload : Manifest.load fs path with
    | error failure =>
      rw [hload] at hloaded
      exact absurd hloaded (by simp [bind, Except.bind])
    | ok manifest =>
      rw [hload] at hloaded
      exact ⟨_, Manifest.load_eq_ok_iff.mp hload, (exists_withAll_iff _).mp ⟨loaded, hloaded⟩⟩
  · rintro ⟨ds, hdescribes, hfaultless⟩
    obtain ⟨loaded, hloaded⟩ := (exists_withAll_iff empty).mpr hfaultless
    refine ⟨loaded, ?_⟩
    rw [ofManifestFile, Manifest.load_of_describes hdescribes]
    exact hloaded

/-- **Why a file gives no registry of its own**, and that there is no other reason. -/
theorem ofManifestFile_eq_error_iff :
    ofManifestFile fs path = .error failure ↔ Refused fs path failure := by
  unfold ofManifestFile
  cases hload : Manifest.load fs path with
  | error other =>
    constructor
    · intro h
      obtain rfl : other = failure := Except.error.inj h
      rcases Manifest.load_eq_error_iff.mp hload with ⟨cause, hcause, rfl⟩ | ⟨text, htext, hother⟩
      · exact .unreadable hcause
      · exact .malformed htext hother
    · intro h
      have hsame : Manifest.load fs path = .error failure := by
        cases h with
        | unreadable hcause => exact Manifest.load_eq_error_iff.mpr (.inl ⟨_, hcause, rfl⟩)
        | malformed htext hfailure => exact Manifest.load_eq_error_iff.mpr (.inr ⟨_, htext, hfailure⟩)
        | faulty hdescribes =>
          exact absurd (hload.symm.trans (Manifest.load_of_describes hdescribes)) (by simp)
      exact congrArg Except.error (Except.error.inj (hload.symm.trans hsame))
  | ok manifest =>
    have hdescribes := Manifest.load_eq_ok_iff.mp hload
    constructor
    · intro h
      obtain ⟨before, d, after, fault, hds, hbefore, hd, rfl⟩ := withAll_eq_error_iff.mp h
      exact .faulty (hds ▸ hdescribes) hbefore hd
    · intro h
      cases h with
      | unreadable hcause =>
        exact absurd (hload.symm.trans (Manifest.load_eq_error_iff.mpr (.inl ⟨_, hcause, rfl⟩))) (by simp)
      | malformed htext hfailure =>
        exact absurd (hload.symm.trans (Manifest.load_eq_error_iff.mpr (.inr ⟨_, htext, hfailure⟩)))
          (by simp)
      | faulty hdescribes' hbefore hfault =>
        exact withAll_eq_error_iff.mpr ⟨_, _, _, _, hdescribes.unique hdescribes', hbefore, hfault, rfl⟩

/-! ## Layers -/

theorem addManifests_cons_of_describes (registry : Registry) (h : Describes fs path ds) :
    registry.addManifests fs (path :: paths) =
      registry.withAll ds >>= fun changed => addManifests changed fs paths := by
  rw [addManifests, Manifest.load_of_describes h]
  rfl

/-- A file that is good for itself is put on top, whatever is below. -/
theorem addManifests_cons_of_ok {loaded : Registry} (registry : Registry) (paths : List String)
    (h : ofManifestFile fs path = .ok loaded) :
    ∃ changed, registry.addManifests fs (path :: paths) = addManifests changed fs paths := by
  obtain ⟨ds, hdescribes, hfaultless⟩ := exists_ofManifestFile_iff.mp ⟨loaded, h⟩
  obtain ⟨changed, hchanged⟩ := (exists_withAll_iff registry).mpr hfaultless
  refine ⟨changed, ?_⟩
  rw [addManifests_cons_of_describes registry hdescribes, hchanged]
  rfl

/-- A file that is refused for itself ends the loading, whatever is below. -/
theorem addManifests_cons_of_error (registry : Registry) (h : ofManifestFile fs path = .error failure) :
    registry.addManifests fs (path :: paths) = .error failure := by
  cases ofManifestFile_eq_error_iff.mp h with
  | unreadable hcause =>
    rw [addManifests, Manifest.load_eq_error_iff.mpr (.inl ⟨_, hcause, rfl⟩)]
    rfl
  | malformed htext hfailure =>
    rw [addManifests, Manifest.load_eq_error_iff.mpr (.inr ⟨_, htext, hfailure⟩)]
    rfl
  | faulty hdescribes hbefore hfault =>
    rw [addManifests_cons_of_describes registry hdescribes,
      withAll_eq_error_iff.mpr ⟨_, _, _, _, rfl, hbefore, hfault, rfl⟩]
    rfl

/-- Files that are all accepted are put on top of anything, and no others are. -/
theorem exists_addManifests_iff (registry : Registry) :
    (∃ top, registry.addManifests fs paths = .ok top) ↔
      ∀ path ∈ paths, ∃ loaded, ofManifestFile fs path = .ok loaded := by
  induction paths generalizing registry with
  | nil => simp [addManifests]
  | cons first rest ih =>
    rw [List.forall_mem_cons]
    cases hfirst : ofManifestFile fs first with
    | error failure =>
      rw [addManifests_cons_of_error registry hfirst]
      simp
    | ok loaded =>
      obtain ⟨changed, hchanged⟩ := addManifests_cons_of_ok registry rest hfirst
      rw [hchanged, ih]
      simp

/-- **The earliest refused file gives the failure.** By induction over the files, each of them accepted or
    refused for itself. -/
theorem addManifests_eq_error_iff (registry : Registry) :
    registry.addManifests fs paths = .error failure ↔
      ∃ before path after, paths = before ++ path :: after ∧
        (∀ earlier ∈ before, ∃ loaded, ofManifestFile fs earlier = .ok loaded) ∧
        ofManifestFile fs path = .error failure := by
  induction paths generalizing registry with
  | nil =>
    constructor
    · intro h
      exact absurd h (by simp [addManifests])
    · rintro ⟨before, path, after, hpaths, -⟩
      exact absurd hpaths (by simp)
  | cons first rest ih =>
    cases hfirst : ofManifestFile fs first with
    | error other =>
      rw [addManifests_cons_of_error registry hfirst]
      constructor
      · intro h
        obtain rfl : other = failure := Except.error.inj h
        exact ⟨[], first, rest, rfl, by simp, hfirst⟩
      · rintro ⟨before, path, after, hpaths, hbefore, hpath⟩
        cases before with
        | nil =>
          obtain ⟨rfl, rfl⟩ := List.cons.inj hpaths
          exact congrArg Except.error (Except.error.inj (hfirst.symm.trans hpath))
        | cons earlier more =>
          obtain ⟨rfl, -⟩ := List.cons.inj hpaths
          obtain ⟨loaded, hloaded⟩ := hbefore first List.mem_cons_self
          exact absurd (hfirst.symm.trans hloaded) (by simp)
    | ok loaded =>
      obtain ⟨changed, hchanged⟩ := addManifests_cons_of_ok registry rest hfirst
      rw [hchanged, ih]
      constructor
      · rintro ⟨before, path, after, rfl, hbefore, hpath⟩
        exact ⟨first :: before, path, after, rfl, List.forall_mem_cons.mpr ⟨⟨loaded, hfirst⟩, hbefore⟩, hpath⟩
      · rintro ⟨before, path, after, hpaths, hbefore, hpath⟩
        cases before with
        | nil =>
          obtain ⟨rfl, -⟩ := List.cons.inj hpaths
          exact absurd (hfirst.symm.trans hpath) (by simp)
        | cons earlier more =>
          obtain ⟨-, hrest⟩ := List.cons.inj hpaths
          exact ⟨more, path, after, hrest, (List.forall_mem_cons.mp hbefore).2, hpath⟩

/-- **Layers are one list.** Files that hold manifests come to what their descriptors come to in their
    order, or fail with the first fault among them. -/
theorem addManifests_of_describes (registry : Registry) (h : List.Forall₂ (Describes fs) paths contents) :
    registry.addManifests fs paths = registry.withAll contents.flatten := by
  induction h generalizing registry with
  | nil => rfl
  | @cons path ds paths contents hpath _ ih =>
    rw [addManifests_cons_of_describes registry hpath, List.flatten_cons, withAll_append]
    congr 1
    funext changed
    exact ih changed

theorem load_eq_addManifests (fs : FileSystem) (paths : List String) :
    ∃ bottom, empty.withAll builtins = .ok bottom ∧ load fs paths = bottom.addManifests fs paths := by
  have hfaultless : ∀ d ∈ builtins, d.Faultless := fun d hd =>
    ClassDescriptor.fault?_eq_none_iff.mp (fault?_of_mem_builtins d hd)
  obtain ⟨bottom, hbottom⟩ := (exists_withAll_iff empty).mpr hfaultless
  refine ⟨bottom, hbottom, ?_⟩
  rw [load, hbottom]
  rfl

theorem load_of_describes (h : List.Forall₂ (Describes fs) paths contents) :
    load fs paths = empty.withAll (builtins ++ contents.flatten) := by
  obtain ⟨bottom, hbottom, hload⟩ := load_eq_addManifests fs paths
  rw [hload, addManifests_of_describes bottom h, withAll_append, hbottom]
  rfl

theorem exists_contents (h : ∀ path ∈ paths, Provided fs path) :
    ∃ contents, List.Forall₂ (Describes fs) paths contents ∧ ∀ d ∈ contents.flatten, d.Faultless := by
  induction paths with
  | nil => exact ⟨[], .nil, by simp⟩
  | cons path rest ih =>
    obtain ⟨ds, hdescribes, hfaultless⟩ := h path List.mem_cons_self
    obtain ⟨contents, hcontents, hrest⟩ := ih fun other hother => h other (List.mem_cons_of_mem _ hother)
    refine ⟨ds :: contents, .cons hdescribes hcontents, ?_⟩
    rw [List.flatten_cons, List.forall_mem_append]
    exact ⟨hfaultless, hrest⟩

/-- **What a name resolves to after loading**: the last descriptor that has it, the built-in ones before
    those of all files. -/
theorem resolve_of_load (h : List.Forall₂ (Describes fs) paths contents)
    (hload : load fs paths = .ok registry) (name : String) :
    registry.resolve name = lastNamed? name (builtins ++ contents.flatten) := by
  rw [load_of_describes h] at hload
  obtain ⟨hfaultless, rfl⟩ := withAll_eq_ok_iff.mp hload
  rw [resolve_registerAll, ClassDescriptor.takeWhile_isFaultless_eq_self hfaultless]
  exact Option.or_none ..

/-- Loading succeeds exactly if every file is accepted. -/
theorem exists_load_iff : (∃ registry, load fs paths = .ok registry) ↔ ∀ path ∈ paths, Provided fs path := by
  obtain ⟨bottom, -, hload⟩ := load_eq_addManifests fs paths
  simp only [hload, exists_addManifests_iff, exists_ofManifestFile_iff]

/-- Loading fails exactly with what is wrong with the earliest file that is refused. -/
theorem load_eq_error_iff :
    load fs paths = .error failure ↔
      ∃ before path after, paths = before ++ path :: after ∧ (∀ earlier ∈ before, Provided fs earlier) ∧
        Refused fs path failure := by
  obtain ⟨bottom, -, hload⟩ := load_eq_addManifests fs paths
  simp only [hload, addManifests_eq_error_iff, exists_ofManifestFile_iff, ofManifestFile_eq_error_iff]

/-! ## Orders of layers -/

/-- **Layers without a common name do not hide each other**: what is last of a name among all of them is last
    of it in the one that has it. -/
theorem lastNamed?_flatten_eq_some_iff {d : ClassDescriptor}
    (h : List.Forall₂ (Describes fs) paths contents) (hapart : paths.Pairwise (Apart fs)) :
    lastNamed? name contents.flatten = some d ↔
      ∃ path ∈ paths, ∃ ds, Describes fs path ds ∧ lastNamed? name ds = some d := by
  induction h generalizing d with
  | nil => simp [lastNamed?]
  | @cons path ds paths contents hpath _ ih =>
    obtain ⟨hfirst, hrest⟩ := List.pairwise_cons.mp hapart
    rw [List.flatten_cons, ClassDescriptor.lastNamed?_append, Option.or_eq_some_iff, ih hrest]
    constructor
    · rintro (⟨other, hother, es, hes, hlast⟩ | ⟨-, hlast⟩)
      · exact ⟨other, List.mem_cons_of_mem _ hother, es, hes, hlast⟩
      · exact ⟨path, List.mem_cons_self, ds, hpath, hlast⟩
    · rintro ⟨other, hother, es, hes, hlast⟩
      rcases List.mem_cons.mp hother with rfl | hother
      · obtain rfl := hpath.unique hes
        refine .inr ⟨?_, hlast⟩
        cases hlater : lastNamed? name contents.flatten with
        | none => rfl
        | some e =>
          -- a later layer with the name would share it with this one
          obtain ⟨later, hmem, es, hes, hlastLater⟩ := (ih hrest).mp hlater
          obtain ⟨rfl, before, after, rfl, -⟩ := ClassDescriptor.lastNamed?_eq_some_iff.mp hlast
          obtain ⟨hsame, before', after', rfl, -⟩ := ClassDescriptor.lastNamed?_eq_some_iff.mp hlastLater
          exact absurd hsame.symm (hfirst later hmem _ _ hpath hes d (by simp) e (by simp))
      · exact .inl ⟨other, hother, es, hes, hlast⟩

/-- **Files without a common name can be loaded in any order**, and are refused in any. -/
theorem load_eq_of_perm (hperm : paths.Perm others) (hapart : paths.Pairwise (Apart fs)) :
    (load fs paths).toOption = (load fs others).toOption := by
  have hothers : others.Pairwise (Apart fs) :=
    (hperm.pairwise_iff fun h => h.symm).mp hapart
  cases hload : load fs paths with
  | error failure =>
    cases hload' : load fs others with
    | error failure' => rfl
    | ok registry' =>
      have hprovided := exists_load_iff.mp ⟨registry', hload'⟩
      obtain ⟨registry, hregistry⟩ :=
        exists_load_iff.mpr fun path hpath => hprovided path (hperm.mem_iff.mp hpath)
      exact absurd (hload.symm.trans hregistry) (by simp)
  | ok registry =>
    have hprovided := exists_load_iff.mp ⟨registry, hload⟩
    have hprovided' : ∀ path ∈ others, Provided fs path := fun path hpath =>
      hprovided path (hperm.mem_iff.mpr hpath)
    obtain ⟨contents, hcontents, -⟩ := exists_contents hprovided
    obtain ⟨contents', hcontents', -⟩ := exists_contents hprovided'
    obtain ⟨registry', hload'⟩ := exists_load_iff.mpr hprovided'
    have hsame : registry = registry' := by
      apply eq_of_resolve_eq
      intro name
      have hlast : lastNamed? name contents.flatten = lastNamed? name contents'.flatten := by
        apply Option.ext
        intro d
        rw [lastNamed?_flatten_eq_some_iff hcontents hapart,
          lastNamed?_flatten_eq_some_iff hcontents' hothers]
        simp only [hperm.mem_iff]
      rw [resolve_of_load hcontents hload, resolve_of_load hcontents' hload',
        ClassDescriptor.lastNamed?_append, ClassDescriptor.lastNamed?_append, hlast]
    rw [hload', hsame]

/-! ## Any list of files -/

/-- **Layers of manifests.** Loading a list of files succeeds exactly if each of them is read as a text, is a
    manifest and has no faulty descriptor. Otherwise it fails with what is wrong with the earliest file that
    is refused. After loading, a name resolves to the last descriptor that has it, among the built-in ones and
    then those of all files in their order, so that every built-in name still resolves. Files that hold the
    same descriptors in the same order come to the same, wherever one file ends and the next begins. And
    files of which no two have a name in common come to the same in any order, or are refused in any. -/
theorem load_layers (fs : FileSystem) (paths : List String) :
    ((∃ registry, load fs paths = .ok registry) ↔ ∀ path ∈ paths, Provided fs path) ∧
    (∀ failure, load fs paths = .error failure ↔
      ∃ before path after, paths = before ++ path :: after ∧ (∀ earlier ∈ before, Provided fs earlier) ∧
        Refused fs path failure) ∧
    (∀ registry, load fs paths = .ok registry →
      ∃ contents, List.Forall₂ (Describes fs) paths contents ∧
        (∀ name, registry.resolve name = lastNamed? name (builtins ++ contents.flatten)) ∧
        ∀ d ∈ builtins, ∃ d', registry.resolve d.name = some d') ∧
    (∀ fs' others contents contents', List.Forall₂ (Describes fs) paths contents →
      List.Forall₂ (Describes fs') others contents' → contents.flatten = contents'.flatten →
        load fs paths = load fs' others) ∧
    ∀ others, paths.Perm others → paths.Pairwise (Apart fs) →
      (load fs paths).toOption = (load fs others).toOption := by
  refine ⟨exists_load_iff, fun failure => load_eq_error_iff, ?_, ?_, fun others => load_eq_of_perm⟩
  · intro registry hload
    obtain ⟨contents, hcontents, -⟩ := exists_contents (exists_load_iff.mp ⟨registry, hload⟩)
    have hresolve := resolve_of_load hcontents hload
    refine ⟨contents, hcontents, hresolve, fun d hd => ?_⟩
    apply Option.ne_none_iff_exists'.mp
    intro hnone
    rw [hresolve, ClassDescriptor.lastNamed?_eq_none_iff] at hnone
    exact hnone d (List.mem_append_left _ hd) rfl
  · intro fs' others contents contents' hcontents hcontents' hsame
    rw [load_of_describes hcontents, load_of_describes hcontents', hsame]

/-- Two manifest files, of one list of descriptors each. -/
def twoLayers (ds es : List ClassDescriptor) : FileSystem where
  root := .directory
    [("a.json", .file (Text.encode (Manifest.mk ds).toJson.pretty)),
      ("b.json", .file (Text.encode (Manifest.mk es).toJson.pretty))]
  workingPlace := []
  wellFormed := by
    simp only [Node.WellFormed, EntriesWellFormed, List.mem_cons, List.not_mem_nil, or_false,
      forall_eq, false_implies, implies_true, and_true]
    decide

/-- Of two layers with an annotation type each, the later one hides the other if the names are the same; and a
    file that is not there is what loading fails with, after one that is. -/
theorem load_layers_twoLayers :
    (∃ registry, load (twoLayers [⟨"q.A", .annotationType, some [.typeUse], none, [], []⟩]
        [⟨"q.A", .annotationType, some [], none, [], []⟩]) ["/a.json", "/b.json"] = .ok registry ∧
      registry.resolve "q.A" = some ⟨"q.A", .annotationType, some [], none, [], []⟩) ∧
    load (twoLayers [⟨"q.A", .annotationType, some [], none, [], []⟩] []) ["/a.json", "/c.json"] =
      .error (.file .notFound) := by
  let early : ClassDescriptor := ⟨"q.A", .annotationType, some [.typeUse], none, [], []⟩
  let late : ClassDescriptor := ⟨"q.A", .annotationType, some [], none, [], []⟩
  have hearly : early.Faultless := ClassDescriptor.fault?_eq_none_iff.mp (by decide)
  have hlate : late.Faultless := ClassDescriptor.fault?_eq_none_iff.mp (by decide)
  constructor
  · have hbottom : Describes (twoLayers [early] [late]) "/a.json" [early] :=
      Manifest.describes_of_readFile (m := ⟨[early]⟩) rfl rfl
    have htop : Describes (twoLayers [early] [late]) "/b.json" [late] :=
      Manifest.describes_of_readFile (m := ⟨[late]⟩) rfl rfl
    obtain ⟨hloads, -, hlayers, -⟩ := load_layers (twoLayers [early] [late]) ["/a.json", "/b.json"]
    obtain ⟨registry, hregistry⟩ := hloads.mpr (by
      rw [List.forall_mem_cons, List.forall_mem_singleton]
      exact ⟨⟨_, hbottom, List.forall_mem_singleton.mpr hearly⟩,
        _, htop, List.forall_mem_singleton.mpr hlate⟩)
    refine ⟨registry, hregistry, ?_⟩
    obtain ⟨contents, hcontents, hresolve, -⟩ := hlayers registry hregistry
    cases hcontents with
    | cons hfirst hrest =>
      cases hrest with
      | cons hsecond hnone =>
        cases hnone
        rw [hresolve, hfirst.unique hbottom, hsecond.unique htop]
        rfl
  · have hbottom : Describes (twoLayers [late] []) "/a.json" [late] :=
      Manifest.describes_of_readFile (m := ⟨[late]⟩) rfl rfl
    obtain ⟨-, hfails, -⟩ := load_layers (twoLayers [late] []) ["/a.json", "/c.json"]
    exact (hfails _).mpr ⟨["/a.json"], "/c.json", [], rfl,
      List.forall_mem_singleton.mpr ⟨_, hbottom, List.forall_mem_singleton.mpr hlate⟩, .unreadable rfl⟩

end Registry

end QualifierDiscovery
