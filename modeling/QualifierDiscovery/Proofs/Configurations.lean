import QualifierDiscovery.Config
import QualifierDiscovery.Proofs.Files.Writing
import QualifierDiscovery.Proofs.Json.Spellings

/-!
# `Proofs.Configurations` — configurations are read from files, defaults put in

In JSON a configuration is an object, and so is the layout in it. Any of their members may be left out
(`IsForm`), and they may stand in any order: what is left out is as in the standard configuration, and
nothing else is (`chosen`). A file that spells such an object gives this configuration if there is nothing
wrong with it (`load_selected`); what is written for a configuration is one of these objects with nothing left
out (`ofText_written`). Whatever a file holds, a configuration that is read from it has passed the check
(`fault?_of_load`).
-/

namespace QualifierDiscovery

open Json (Value Reads StepsDraft)

/-- A value that is there or not, with a default. -/
theorem getD_if {α : Type} (b : Bool) (x default : α) :
    (if b = true then some x else none).getD default = if b = true then x else default :=
  apply_ite_left Option.getD (b = true) (some x) none default

/-! ## Layouts -/

namespace Layout

variable {layout : Layout} {kept : String → Bool}

/-- The members of a layout as `toJson` writes them. -/
def members (layout : Layout) : List (String × Value) :=
  [("archive_suffixes", .ofStrings layout.archiveSuffixes),
    ("compiled_suffix", .string layout.compiledSuffix), ("source_suffix", .string layout.sourceSuffix)]

/-- The value is the layout in JSON, with only the members that are kept. -/
def IsForm (kept : String → Bool) (layout : Layout) (value : Value) : Prop :=
  value.Selects kept layout.members

/-- The layout with the fields that are kept; the others are as in `java`. -/
def chosen (kept : String → Bool) (layout : Layout) : Layout where
  archiveSuffixes := if kept "archive_suffixes" then layout.archiveSuffixes else java.archiveSuffixes
  compiledSuffix := if kept "compiled_suffix" then layout.compiledSuffix else java.compiledSuffix
  sourceSuffix := if kept "source_suffix" then layout.sourceSuffix else java.sourceSuffix

/-- What has been read of a layout when the members with some keys have come. -/
def draftOf (layout : Layout) (seen : String → Bool) : Draft where
  archiveSuffixes := if seen "archive_suffixes" then some layout.archiveSuffixes else none
  compiledSuffix := if seen "compiled_suffix" then some layout.compiledSuffix else none
  sourceSuffix := if seen "source_suffix" then some layout.sourceSuffix else none

theorem reads_strings (texts : List String) :
    Reads (Json.decodeList Json.decodeString) (.ofStrings texts) texts :=
  Json.reads_list (fun text _ => Json.reads_string text) fun text _ => Value.floatFree_string text

theorem stepsDraft_of_mem_members {member : String × Value} (h : member ∈ layout.members) :
    StepsDraft record.fields layout.draftOf member.1 member.2 := by
  simp only [members, List.mem_cons, List.not_mem_nil, or_false] at h
  rcases h with rfl | rfl | rfl
  · exact .of rfl (fun seen hseen => by simp [draftOf, hseen]) (fun seen => by simp [draftOf])
      (reads_strings layout.archiveSuffixes)
  · exact .of rfl (fun seen hseen => by simp [draftOf, hseen]) (fun seen => by simp [draftOf])
      (Json.reads_string layout.compiledSuffix)
  · exact .of rfl (fun seen hseen => by simp [draftOf, hseen]) (fun seen => by simp [draftOf])
      (Json.reads_string layout.sourceSuffix)

theorem nodup_keys (layout : Layout) : (layout.members.map Prod.fst).Nodup := by
  show ["archive_suffixes", "compiled_suffix", "source_suffix"].Nodup
  decide

/-- **A layout is read from the members that are kept.** -/
theorem reads_isForm {value : Value} (h : layout.IsForm kept value) :
    Reads decode value (layout.chosen kept) := by
  refine Json.reads_selected rfl (fun _ => stepsDraft_of_mem_members) layout.nodup_keys ?_ h
  intro seen hseen
  simp only [members, List.forall_mem_cons] at hseen
  obtain ⟨harchive, hcompiled, hsource, -⟩ := hseen
  simp only [record, draftOf, chosen, harchive, hcompiled, hsource, getD_if]

theorem IsForm.nesting_le {value : Value} (h : layout.IsForm kept value) : value.nesting ≤ 2 := by
  refine Value.Selects.nesting_le h ?_
  simp only [members, List.forall_mem_cons, List.not_mem_nil, false_implies, implies_true, and_true]
  refine ⟨?_, Nat.zero_le _, Nat.zero_le _⟩
  rw [Value.ofStrings, Value.nesting, Nat.add_le_add_iff_right, Json.itemsNesting_le_iff]
  intro item hitem
  obtain ⟨text, -, rfl⟩ := List.mem_map.mp hitem
  exact Nat.le_refl _

/-- All suffixes of a layout are suffixes exactly if no bad one is found. -/
theorem badSuffix?_eq_none_iff :
    layout.badSuffix? = none ↔
      (∀ suffix ∈ layout.archiveSuffixes, isSuffix suffix = true) ∧
        isSuffix layout.compiledSuffix = true ∧ isSuffix layout.sourceSuffix = true := by
  unfold badSuffix?
  simp [List.find?_eq_none, or_imp, forall_and]

/-- With defaults for some of its fields, a usable layout is usable. -/
theorem badSuffix?_chosen (kept : String → Bool) (h : layout.badSuffix? = none) :
    (layout.chosen kept).badSuffix? = none := by
  obtain ⟨harchive, hcompiled, hsource⟩ := badSuffix?_eq_none_iff.mp h
  have hjava : java.badSuffix? = none := by decide
  obtain ⟨hjavaArchive, hjavaCompiled, hjavaSource⟩ := badSuffix?_eq_none_iff.mp hjava
  -- a chosen field is the one or the other, and both are good
  refine badSuffix?_eq_none_iff.mpr ⟨?_, ?_, ?_⟩
  · exact iteInduction (motive := fun suffixes => ∀ suffix ∈ suffixes, isSuffix suffix = true)
      (fun _ => harchive) (fun _ => hjavaArchive)
  · exact iteInduction (motive := (isSuffix · = true)) (fun _ => hcompiled) (fun _ => hjavaCompiled)
  · exact iteInduction (motive := (isSuffix · = true)) (fun _ => hsource) (fun _ => hjavaSource)

theorem chosen_all (h : ∀ key, kept key = true) : layout.chosen kept = layout := by
  unfold chosen
  simp only [h, if_true]

end Layout

/-! ## Configurations -/

theorem FailurePolicy.valueAt_jsonName (policy : FailurePolicy) :
    Text.valueAt? policy.jsonName names = some policy := by
  cases policy <;> rfl

namespace Config

variable {config found : Config} {kept : String → Bool} {fs : FileSystem} {path text : String} {value : Value}

/-- The members of a configuration as `toJson` writes them, given what stands for its layout. -/
def members (config : Config) (layout : Value) : List (String × Value) :=
  [("qual_suffix", .string config.packageSuffix), ("layout", layout),
    ("synthesis_failure", .string config.failurePolicy.jsonName)]

/-- The value is the configuration in JSON, with only the members that are kept, in any order. No key stands
    both here and in the layout, so one choice of keys says of either what is kept. -/
def IsForm (kept : String → Bool) (config : Config) (value : Value) : Prop :=
  ∃ layout, config.layout.IsForm kept layout ∧ value.Selects kept (config.members layout)

/-- Nothing is left out of what is written for a configuration. -/
theorem isForm_toJson (h : ∀ key, kept key = true) (config : Config) : config.IsForm kept config.toJson :=
  ⟨config.layout.toJson, Value.selects_all h, Value.selects_all h⟩

/-- The configuration with the fields that are kept; the others are as in `standard`, and so are those of a
    layout that is kept itself. -/
def chosen (kept : String → Bool) (config : Config) : Config where
  packageSuffix := if kept "qual_suffix" then config.packageSuffix else standard.packageSuffix
  layout := if kept "layout" then config.layout.chosen kept else standard.layout
  failurePolicy := if kept "synthesis_failure" then config.failurePolicy else standard.failurePolicy

/-- What has been read of a configuration when the members with some keys have come, the layout among them
    with the fields that are kept. -/
def draftOf (config : Config) (kept seen : String → Bool) : Draft where
  packageSuffix := if seen "qual_suffix" then some config.packageSuffix else none
  layout := if seen "layout" then some (config.layout.chosen kept) else none
  failurePolicy := if seen "synthesis_failure" then some config.failurePolicy else none

/-! ### Reading -/

theorem stepsDraft_of_mem_members {layout : Value} (hlayout : config.layout.IsForm kept layout)
    {member : String × Value} (h : member ∈ config.members layout) :
    StepsDraft record.fields (config.draftOf kept) member.1 member.2 := by
  simp only [members, List.mem_cons, List.not_mem_nil, or_false] at h
  rcases h with rfl | rfl | rfl
  · exact .of rfl (fun seen hseen => by simp [draftOf, hseen]) (fun seen => by simp [draftOf])
      (Json.reads_string config.packageSuffix)
  · exact .of rfl (fun seen hseen => by simp [draftOf, hseen]) (fun seen => by simp [draftOf])
      (Layout.reads_isForm hlayout)
  · exact .of rfl (fun seen hseen => by simp [draftOf, hseen]) (fun seen => by simp [draftOf])
      (Json.reads_variant config.failurePolicy.valueAt_jsonName)

theorem nodup_keys (config : Config) (layout : Value) : ((config.members layout).map Prod.fst).Nodup := by
  show ["qual_suffix", "layout", "synthesis_failure"].Nodup
  decide

/-- **A configuration is read from the members that are kept.** -/
theorem reads_isForm (h : config.IsForm kept value) : Reads decode value (config.chosen kept) := by
  obtain ⟨layout, hlayout, hvalue⟩ := h
  have hempty : config.draftOf kept (fun _ => false) = record.empty := rfl
  refine Json.reads_selected hempty
    (fun _ => stepsDraft_of_mem_members hlayout) (config.nodup_keys layout) ?_ hvalue
  intro seen hseen
  simp only [members, List.forall_mem_cons] at hseen
  obtain ⟨hsuffix, hlayoutKept, hpolicy, -⟩ := hseen
  simp only [record, draftOf, chosen, hsuffix, hlayoutKept, hpolicy, getD_if]

theorem IsForm.nesting_le (h : config.IsForm kept value) : value.nesting ≤ 3 := by
  obtain ⟨layout, hlayout, hvalue⟩ := h
  refine hvalue.nesting_le ?_
  simp only [members, List.forall_mem_cons, List.not_mem_nil, false_implies, implies_true, and_true]
  exact ⟨Nat.zero_le _, hlayout.nesting_le, Nat.zero_le _⟩

/-- **A text that spells the kept members** is read as the configuration with those fields, and this is
    checked. -/
theorem ofText_spelled (hform : config.IsForm kept value) (hspelled : value.SpelledBy text) :
    ofText text = (config.chosen kept).check := by
  have hread := Json.decodeText_spelled (reads_isForm hform)
    (Nat.le_trans hform.nesting_le (by decide)) hspelled
  unfold ofText
  rw [hread]
  rfl

/-! ### Checking -/

theorem check_eq_ok_iff : config.check = .ok found ↔ config.fault? = none ∧ found = config := by
  unfold check
  cases config.fault? with
  | none => simp [eq_comm]
  | some fault => simp

/-- Nothing is wrong with a configuration exactly if its suffix is more than dots and its layout is
    usable. -/
theorem fault?_eq_none_iff :
    config.fault? = none ↔
      Text.dropLeading '.' config.packageSuffix ≠ "" ∧ config.layout.badSuffix? = none := by
  unfold fault?
  by_cases hempty : Text.dropLeading '.' config.packageSuffix = ""
  · simp [hempty]
  · simp [hempty]

/-- The defaults pass the check, and so a configuration that passes it does with any of its fields
    defaulted. -/
theorem fault?_chosen (kept : String → Bool) (h : config.fault? = none) :
    (config.chosen kept).fault? = none := by
  obtain ⟨hsuffix, hlayout⟩ := fault?_eq_none_iff.mp h
  have hstandard : standard.fault? = none := by decide
  obtain ⟨hstandardSuffix, hstandardLayout⟩ := fault?_eq_none_iff.mp hstandard
  refine fault?_eq_none_iff.mpr ⟨?_, ?_⟩
  · exact iteInduction (motive := fun suffix => Text.dropLeading '.' suffix ≠ "") (fun _ => hsuffix)
      (fun _ => hstandardSuffix)
  · exact iteInduction (motive := fun layout : Layout => layout.badSuffix? = none)
      (fun _ => Layout.badSuffix?_chosen kept hlayout) (fun _ => hstandardLayout)

theorem chosen_all (h : ∀ key, kept key = true) : config.chosen kept = config := by
  unfold chosen
  simp only [h, if_true, Layout.chosen_all h]

/-- **What is written for a configuration is read and checked**, on one line or over several. -/
theorem ofText_written (config : Config) :
    ofText config.toJson.compact = config.check ∧ ofText config.toJson.pretty = config.check := by
  have hkept : ∀ key : String, (fun _ => true) key = true := fun _ => rfl
  have hread : ∀ {text : String}, config.toJson.SpelledBy text → ofText text = config.check := by
    intro text hspelled
    rw [ofText_spelled (isForm_toJson hkept config) hspelled, chosen_all hkept]
  exact ⟨hread config.toJson.spelledBy_compact, hread config.toJson.spelledBy_pretty⟩

/-! ### Files -/

theorem load_of_readText (h : fs.readText path = .ok text) : load fs path = ofText text := by
  unfold load
  rw [h]
  rfl

/-- Whatever is read from a file has been checked. -/
theorem fault?_of_load (h : load fs path = .ok found) : found.fault? = none := by
  cases htext : fs.readText path with
  | error cause =>
    unfold load at h
    rw [htext] at h
    exact absurd h (by simp [Except.mapError, bind, Except.bind])
  | ok text =>
    rw [load_of_readText htext] at h
    unfold ofText at h
    cases hread : Json.decodeText decode text with
    | error fault =>
      rw [hread] at h
      exact absurd h (by simp [Except.mapError, bind, Except.bind])
    | ok config =>
      rw [hread] at h
      obtain ⟨hfault, rfl⟩ := check_eq_ok_iff.mp h
      exact hfault

/-- **Configuration files round-trip, field by field.** Let a file spell a configuration in JSON with some of
    its members left out, at either level. It is read exactly if the configuration with just those fields
    defaulted has no fault, and then as this configuration; where the whole one has no fault, this one has
    none either, and with nothing left out it is the whole one. Conversely, whatever a file holds, a
    configuration that is read from it has no fault: its suffix is more than dots, and each suffix of its
    layout begins with a dot and has at least two bytes. -/
theorem load_selected (htext : fs.readText path = .ok text) (hform : config.IsForm kept value)
    (hspelled : value.SpelledBy text) :
    (∀ found, load fs path = .ok found ↔
      (config.chosen kept).fault? = none ∧ found = config.chosen kept) ∧
      (config.fault? = none → load fs path = .ok (config.chosen kept)) ∧
      ((∀ key, kept key = true) → config.fault? = none → load fs path = .ok config) ∧
      ∀ {otherFs : FileSystem} {otherPath : String} {found : Config}, load otherFs otherPath = .ok found →
        found.fault? = none ∧ Text.dropLeading '.' found.packageSuffix ≠ "" ∧
          ∀ suffix ∈ found.layout.archiveSuffixes ++ [found.layout.compiledSuffix, found.layout.sourceSuffix],
            Text.startsWith "." suffix = true ∧ 2 ≤ suffix.utf8ByteSize := by
  have hload : load fs path = (config.chosen kept).check :=
    (load_of_readText htext).trans (ofText_spelled hform hspelled)
  have hvalid : config.fault? = none → load fs path = .ok (config.chosen kept) := fun hfault =>
    hload.trans (check_eq_ok_iff.mpr ⟨fault?_chosen kept hfault, rfl⟩)
  refine ⟨fun found => hload ▸ check_eq_ok_iff, hvalid, fun hall hfault => ?_, fun hfound => ?_⟩
  · rw [hvalid hfault, chosen_all hall]
  · have hfault := fault?_of_load hfound
    obtain ⟨hsuffix, hlayout⟩ := fault?_eq_none_iff.mp hfault
    refine ⟨hfault, hsuffix, fun suffix hmem => ?_⟩
    have hgood := List.find?_eq_none.mp hlayout suffix hmem
    rw [Bool.not_eq_true, Bool.not_eq_false'] at hgood
    obtain ⟨hdot, hsize⟩ := Bool.and_eq_true_iff.mp hgood
    exact ⟨hdot, of_decide_eq_true hsize⟩

/-- A configuration with a faulty suffix for compiled classes. -/
def faulty : Config := ⟨"..q\"é\n", ⟨[".j\\ar", ".𝕁"], "class", ".x"⟩, .skip⟩

/-- Every key but the one of the faulty suffix, and the policy's. -/
def someKeys (key : String) : Bool := key != "compiled_suffix" && key != "synthesis_failure"

/-- The kept members in another order than they are written in. -/
def faultyValue : Value :=
  .object [("layout", .object [("source_suffix", .string ".x"),
      ("archive_suffixes", .ofStrings [".j\\ar", ".𝕁"])]), ("qual_suffix", .string "..q\"é\n")]

/-- A file that spells them. -/
def faultyFile : FileSystem where
  root := .directory [("c.json", .file (Text.encode faultyValue.pretty))]
  workingPlace := []
  wellFormed := by
    simp only [Node.WellFormed, EntriesWellFormed, List.not_mem_nil, false_implies, implies_true, and_true]
    decide

theorem load_selected_faulty :
    faulty.fault? = some (.badSuffix "class") ∧
      faultyFile.readText "/c.json" = .ok faultyValue.pretty ∧ faulty.IsForm someKeys faultyValue ∧
      faultyValue.SpelledBy faultyValue.pretty ∧
      load faultyFile "/c.json" = .ok ⟨"..q\"é\n", ⟨[".j\\ar", ".𝕁"], ".class", ".x"⟩, .abort⟩ := by
  have htext : faultyFile.readText "/c.json" = .ok faultyValue.pretty :=
    FileSystem.readText_of_readFile rfl
  have hform : faulty.IsForm someKeys faultyValue :=
    ⟨_, ⟨_, List.Perm.swap _ _ _, rfl⟩, _, List.Perm.swap _ _ _, rfl⟩
  have hspelled := faultyValue.spelledBy_pretty
  obtain ⟨hload, -⟩ := load_selected htext hform hspelled
  exact ⟨by decide, htext, hform, hspelled, (hload _).mpr ⟨by decide, by decide⟩⟩

end Config

end QualifierDiscovery
