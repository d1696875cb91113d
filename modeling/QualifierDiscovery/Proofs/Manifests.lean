import QualifierDiscovery.Proofs.Json.Decoders
import QualifierDiscovery.Proofs.Json.Readings
import QualifierDiscovery.Registry

/-!
# `Proofs.Manifests` — a manifest is read as it was written

Elements, descriptors and manifests are records that leave out what they do not have. Reading what was
written for one fills its fields one after the other and gives it back, as long as its defaults can be read
back and the text does not nest too deeply (`Manifest.decodes_toJson`). What stands too deep are defaults
only: a descriptor puts three levels around them, and a manifest two more (`nesting_toJson_le_iff`).

A manifest that was read can be written and read again: its defaults came through the same levels that
are put around them in writing (`ofText_toJson`).
-/

namespace QualifierDiscovery

open Json (Value Decodes Fills Ensures Field optionalMember)

/-! ## Elements -/

namespace ElementDescriptor

variable {e : ElementDescriptor} {depth : Nat}

theorem toJson_eq (e : ElementDescriptor) :
    e.toJson = .object ([("name", .string e.name), ("value_type", .string e.valueType)] ++
      optionalMember "default" e.default?) := by
  unfold toJson
  cases e.default? <;> rfl

/-- An element is read from its name and its type, and from its default if it has one. -/
theorem decodes_toJson (h : ∀ v, e.default? = some v → v.Proper ∧ v.FloatFree) :
    Decodes decode e.toJson e := by
  have hname : Fills record.fields {} [("name", .string e.name)] ⟨some e.name, none, none⟩ :=
    .single rfl rfl rfl (Json.decodes_string e.name)
  have htype : Fills record.fields ⟨some e.name, none, none⟩ [("value_type", .string e.valueType)]
      ⟨some e.name, some e.valueType, none⟩ :=
    .single rfl rfl rfl (Json.decodes_string e.valueType)
  have hdefault : Fills record.fields ⟨some e.name, some e.valueType, none⟩
      (optionalMember "default" e.default?) ⟨some e.name, some e.valueType, e.default?.map some⟩ := by
    cases hv : e.default? with
    | none => exact .nil _
    | some v =>
      obtain ⟨hproper, hfloat⟩ := h v hv
      have hvalue := Json.decodes_value hfloat hproper.keysIncrease
      exact .single rfl rfl rfl (hvalue.optional hproper.ne_null hfloat)
  have hfinish : record.finish ⟨some e.name, some e.valueType, e.default?.map some⟩ = .ok e := by
    obtain ⟨name, valueType, default?⟩ := e
    cases default? <;> rfl
  rw [toJson_eq]
  exact Json.decodes_record ((hname.append htype).append hdefault) hfinish

theorem nesting_toJson_le_iff :
    e.toJson.nesting ≤ depth + 1 ↔ ∀ v, e.default? = some v → v.nesting ≤ depth := by
  unfold toJson
  cases e.default? <;> simp [Value.nesting, Json.membersNesting]

/-- The default of an element that was read is proper and stands one level deeper. -/
theorem ensures_decode (depth : Nat) :
    Ensures (decode depth) fun e => ∀ v, e.default? = some v → v.Proper ∧ v.nesting + 1 ≤ depth := by
  have hrecord := Json.ensures_decodeRecord record
    (fun depth draft => ∀ v, draft.default = some (some v) → v.Proper ∧ v.nesting ≤ depth)
    (fun depth e => ∀ v, e.default? = some v → v.Proper ∧ v.nesting ≤ depth) ?_ ?_ ?_ depth
  · refine Ensures.imp hrecord ?_
    rintro e ⟨inner, rfl, hdefault⟩ v hv
    obtain ⟨hproper, hnesting⟩ := hdefault v hv
    exact ⟨hproper, Nat.add_le_add_right hnesting 1⟩
  · intro depth v hv
    exact absurd hv (by simp [record])
  · intro depth field hfield
    simp only [record, List.mem_cons, List.not_mem_nil, or_false] at hfield
    rcases hfield with rfl | rfl | rfl
    · exact Field.keeps_of (Json.ensures_true _) fun _ _ _ hdraft => hdraft
    · exact Field.keeps_of (Json.ensures_true _) fun _ _ _ hdraft => hdraft
    · refine Field.keeps_of (Json.ensures_decodeOptional depth) ?_
      intro found draft hfound _ v hv
      exact hfound v (Option.some.inj hv)
  · intro depth draft e hdraft hfinish v hv
    obtain ⟨name, -, hfinish⟩ := Json.exists_of_bind_eq_ok hfinish
    obtain ⟨valueType, -, hfinish⟩ := Json.exists_of_bind_eq_ok hfinish
    obtain rfl := Except.ok.inj hfinish
    exact hdraft v (Option.join_eq_some_iff.mp hv)

end ElementDescriptor

/-! ## Descriptors -/

namespace ClassDescriptor

variable {d : ClassDescriptor} {depth : Nat}

/-- The defaults of a descriptor's elements. -/
def defaults (d : ClassDescriptor) : List Value := d.elements.filterMap ElementDescriptor.default?

theorem forall_mem_defaults {p : Value → Prop} :
    (∀ v ∈ d.defaults, p v) ↔ ∀ e ∈ d.elements, ∀ v, e.default? = some v → p v := by
  simp only [defaults, List.mem_filterMap]
  constructor
  · intro h e he v hv
    exact h v ⟨e, he, hv⟩
  · rintro h v ⟨e, he, hv⟩
    exact h e he v hv

theorem floatFree_ofStrings (texts : List String) : (Value.ofStrings texts).FloatFree := by
  rw [Value.ofStrings, Value.floatFree_array]
  intro text htext
  obtain ⟨s, -, rfl⟩ := List.mem_map.mp htext
  exact Value.floatFree_string s

theorem decodes_strings (texts : List String) :
    Decodes (Json.decodeList Json.decodeString) (.ofStrings texts) texts :=
  Json.decodes_list fun text _ => Json.decodes_string text

theorem decodes_targets (targets : List ElementType) :
    Decodes decodeTargets (.ofStrings (targets.map ElementType.jsonName)) targets := by
  have hlist : Decodes decodeTargets (.array (targets.map fun target => .string target.jsonName)) targets :=
    Json.decodes_list fun target _ => Json.decodes_variant target.valueAt_jsonName
  rw [Value.ofStrings, List.map_map]
  exact hlist

theorem decodes_elements (h : ∀ v ∈ d.defaults, v.Proper ∧ v.FloatFree) :
    Decodes (Json.decodeList ElementDescriptor.decode) (.array (d.elements.map ElementDescriptor.toJson))
      d.elements := by
  apply Json.decodes_list
  intro e he
  exact ElementDescriptor.decodes_toJson (forall_mem_defaults.mp h e he)

/-- A list that is left out when it is empty. -/
def nonempty? {α : Type} (xs : List α) : Option (List α) := if xs.isEmpty then none else some xs

theorem toJson_eq (d : ClassDescriptor) :
    d.toJson = .object ([("name", .string d.name), ("kind", .string d.kind.jsonName)] ++
      optionalMember "target" (d.targets?.map fun targets => .ofStrings (targets.map ElementType.jsonName)) ++
      optionalMember "retention" (d.retention?.map fun policy => .string policy.jsonName) ++
      optionalMember "elements"
        ((nonempty? d.elements).map fun elements => .array (elements.map ElementDescriptor.toJson)) ++
      optionalMember "meta_annotations" ((nonempty? d.metaAnnotations).map .ofStrings)) := by
  obtain ⟨name, kind, targets?, retention?, elements, metaAnnotations⟩ := d
  cases targets? <;> cases retention? <;> cases elements <;> cases metaAnnotations <;> rfl

theorem nonempty?_eq_some_iff {α : Type} {xs ys : List α} :
    nonempty? xs = some ys ↔ xs ≠ [] ∧ ys = xs := by
  unfold nonempty?
  cases xs <;> simp [eq_comm]

section Filling

variable {draft : Draft}

theorem fills_targets (targets? : Option (List ElementType)) (hdraft : draft.targets = none) :
    Fills record.fields draft
      (optionalMember "target" (targets?.map fun targets => .ofStrings (targets.map ElementType.jsonName)))
      { draft with targets := targets?.map some } := by
  cases targets? with
  | none =>
    rw [Option.map_none, Option.map_none, ← hdraft]
    exact .nil draft
  | some targets =>
    have hnull : Value.ofStrings (targets.map ElementType.jsonName) ≠ .null := by simp [Value.ofStrings]
    exact .single rfl hdraft rfl ((decodes_targets targets).optional hnull (floatFree_ofStrings _))

theorem fills_retention (retention? : Option RetentionPolicy) (hdraft : draft.retention = none) :
    Fills record.fields draft
      (optionalMember "retention" (retention?.map fun policy => .string policy.jsonName))
      { draft with retention := retention?.map some } := by
  cases retention? with
  | none =>
    rw [Option.map_none, Option.map_none, ← hdraft]
    exact .nil draft
  | some policy =>
    have hpolicy := Json.decodes_variant policy.valueAt_jsonName
    exact .single rfl hdraft rfl (hpolicy.optional (by simp) (Value.floatFree_string _))

theorem fills_elements (h : ∀ v ∈ d.defaults, v.Proper ∧ v.FloatFree) (hdraft : draft.elements = none) :
    Fills record.fields draft
      (optionalMember "elements"
        ((nonempty? d.elements).map fun elements => .array (elements.map ElementDescriptor.toJson)))
      { draft with elements := nonempty? d.elements } := by
  cases helements : nonempty? d.elements with
  | none =>
    rw [Option.map_none, ← hdraft]
    exact .nil draft
  | some elements =>
    obtain ⟨-, rfl⟩ := nonempty?_eq_some_iff.mp helements
    exact .single rfl hdraft rfl (decodes_elements h)

theorem fills_metaAnnotations (names : List String) (hdraft : draft.metaAnnotations = none) :
    Fills record.fields draft (optionalMember "meta_annotations" ((nonempty? names).map .ofStrings))
      { draft with metaAnnotations := nonempty? names } := by
  cases nonempty? names with
  | none =>
    rw [Option.map_none, ← hdraft]
    exact .nil draft
  | some names => exact .single rfl hdraft rfl (decodes_strings names)

end Filling

/-- A descriptor is read from its name and its kind, and from what else it has. -/
theorem decodes_toJson (h : ∀ v ∈ d.defaults, v.Proper ∧ v.FloatFree) : Decodes decode d.toJson d := by
  have hname : Fills record.fields {} [("name", .string d.name)] { name := some d.name } :=
    .single rfl rfl rfl (Json.decodes_string d.name)
  have hkind : Fills record.fields { name := some d.name } [("kind", .string d.kind.jsonName)]
      { name := some d.name, kind := some d.kind } :=
    .single rfl rfl rfl (Json.decodes_variant d.kind.valueAt_jsonName)
  have hfills := ((((hname.append hkind).append (fills_targets d.targets? rfl)).append
    (fills_retention d.retention? rfl)).append (fills_elements h rfl)).append
    (fills_metaAnnotations d.metaAnnotations rfl)
  rw [toJson_eq]
  refine Json.decodes_record hfills ?_
  -- what is left out is what the missing fields stand for
  obtain ⟨name, kind, targets?, retention?, elements, metaAnnotations⟩ := d
  cases targets? <;> cases retention? <;> cases elements <;> cases metaAnnotations <;> rfl

theorem nesting_ofStrings (texts : List String) : (Value.ofStrings texts).nesting = 1 := by
  have hitems : Json.itemsNesting (texts.map .string) ≤ 0 := by
    rw [Json.itemsNesting_le_iff]
    simp [Value.nesting]
  rw [Value.ofStrings, Value.nesting]
  omega

/-- A descriptor stands three levels around its defaults: its own, that of its elements and the
    element's. -/
theorem nesting_toJson_le_iff : d.toJson.nesting ≤ depth + 3 ↔ ∀ v ∈ d.defaults, v.nesting ≤ depth := by
  have helements : (Value.array (d.elements.map ElementDescriptor.toJson)).nesting ≤ depth + 2 ↔
      ∀ v ∈ d.defaults, v.nesting ≤ depth := by
    rw [Value.nesting, Nat.add_le_add_iff_right, Json.itemsNesting_le_iff, List.forall_mem_map,
      forall_mem_defaults]
    simp only [ElementDescriptor.nesting_toJson_le_iff]
  rw [toJson_eq, Value.nesting, Nat.add_le_add_iff_right, Json.membersNesting_le_iff]
  constructor
  · intro hmembers
    by_cases hempty : d.elements = []
    · simp [defaults, hempty]
    · have hsome : nonempty? d.elements = some d.elements := nonempty?_eq_some_iff.mpr ⟨hempty, rfl⟩
      exact helements.mp (hmembers ("elements", _) (by simp [hsome, optionalMember]))
  · intro hdefaults member hmember
    simp only [List.mem_append, Json.mem_optionalMember, Option.map_eq_some_iff] at hmember
    rcases hmember with (((hmember | ⟨_, ⟨targets, -, rfl⟩, rfl⟩) | ⟨_, ⟨policy, -, rfl⟩, rfl⟩) |
      ⟨_, ⟨elements, hsome, rfl⟩, rfl⟩) | ⟨_, ⟨names, -, rfl⟩, rfl⟩
    · rcases List.mem_pair.mp hmember with rfl | rfl <;> exact Nat.zero_le _
    · rw [nesting_ofStrings]
      omega
    · exact Nat.zero_le _
    · obtain ⟨-, rfl⟩ := nonempty?_eq_some_iff.mp hsome
      exact helements.mpr hdefaults
    · rw [nesting_ofStrings]
      omega

/-- The defaults of a descriptor that was read are proper and stand three levels deeper. -/
theorem ensures_decode (depth : Nat) :
    Ensures (decode depth) fun d => ∀ v ∈ d.defaults, v.Proper ∧ v.nesting + 3 ≤ depth := by
  have hrecord := Json.ensures_decodeRecord record
    (fun depth draft => ∀ e ∈ draft.elements.getD [], ∀ v, e.default? = some v →
      v.Proper ∧ v.nesting + 2 ≤ depth)
    (fun depth d => ∀ v ∈ d.defaults, v.Proper ∧ v.nesting + 2 ≤ depth) ?_ ?_ ?_ depth
  · refine Ensures.imp hrecord ?_
    rintro d ⟨inner, rfl, hdefaults⟩ v hv
    obtain ⟨hproper, hnesting⟩ := hdefaults v hv
    exact ⟨hproper, Nat.add_le_add_right hnesting 1⟩
  · intro depth e he
    exact absurd he (by simp [record])
  · intro depth field hfield
    simp only [record, List.mem_cons, List.not_mem_nil, or_false] at hfield
    rcases hfield with rfl | rfl | rfl | rfl | rfl | rfl
    · exact Field.keeps_of (Json.ensures_true _) fun _ _ _ hdraft => hdraft
    · exact Field.keeps_of (Json.ensures_true _) fun _ _ _ hdraft => hdraft
    · exact Field.keeps_of (Json.ensures_true _) fun _ _ _ hdraft => hdraft
    · exact Field.keeps_of (Json.ensures_true _) fun _ _ _ hdraft => hdraft
    · refine Field.keeps_of (Json.ensures_decodeList ElementDescriptor.ensures_decode depth) ?_
      rintro elements draft ⟨inner, rfl, helements⟩ _ e he v hv
      obtain ⟨hproper, hnesting⟩ := helements e he v hv
      exact ⟨hproper, by omega⟩
    · exact Field.keeps_of (Json.ensures_true _) fun _ _ _ hdraft => hdraft
  · intro depth draft d hdraft hfinish
    obtain ⟨name, -, hfinish⟩ := Json.exists_of_bind_eq_ok hfinish
    obtain ⟨kind, -, hfinish⟩ := Json.exists_of_bind_eq_ok hfinish
    obtain rfl := Except.ok.inj hfinish
    exact forall_mem_defaults.mpr hdraft

end ClassDescriptor

/-! ## Manifests -/

namespace Manifest

variable {m : Manifest} {depth : Nat} {text : String}

/-- The defaults in a manifest. -/
def defaults (m : Manifest) : List Value := m.descriptors.flatMap ClassDescriptor.defaults

theorem forall_mem_defaults {p : Value → Prop} :
    (∀ v ∈ m.defaults, p v) ↔ ∀ d ∈ m.descriptors, ∀ v ∈ d.defaults, p v := by
  simp only [defaults, List.mem_flatMap]
  constructor
  · intro h d hd v hv
    exact h v ⟨d, hd, hv⟩
  · rintro h v ⟨d, hd, hv⟩
    exact h d hd v hv

/-- **A manifest is read from what is written for it.** -/
theorem decodes_toJson (h : ∀ v ∈ m.defaults, v.Proper ∧ v.FloatFree) : Decodes decode m.toJson m := by
  have hdescriptors : Decodes (Json.decodeList ClassDescriptor.decode)
      (.array (m.descriptors.map ClassDescriptor.toJson)) m.descriptors := by
    apply Json.decodes_list
    intro d hd
    exact ClassDescriptor.decodes_toJson (forall_mem_defaults.mp h d hd)
  have hfills : Fills record.fields {}
      [("descriptors", .array (m.descriptors.map ClassDescriptor.toJson))] ⟨some m.descriptors⟩ :=
    .single rfl rfl rfl hdescriptors
  exact Json.decodes_record hfills rfl

/-- A manifest stands five levels around its defaults. -/
theorem nesting_toJson_le_iff : m.toJson.nesting ≤ depth + 5 ↔ ∀ v ∈ m.defaults, v.nesting ≤ depth := by
  have hdescriptors : (Value.array (m.descriptors.map ClassDescriptor.toJson)).nesting ≤ depth + 4 ↔
      ∀ v ∈ m.defaults, v.nesting ≤ depth := by
    rw [Value.nesting, Nat.add_le_add_iff_right, Json.itemsNesting_le_iff, List.forall_mem_map,
      forall_mem_defaults]
    simp only [ClassDescriptor.nesting_toJson_le_iff]
  rw [toJson, Value.nesting, Nat.add_le_add_iff_right, Json.membersNesting_le_iff, List.forall_mem_singleton]
  exact hdescriptors

/-- The defaults of a manifest that was read are proper and stand five levels deeper. -/
theorem ensures_decode (depth : Nat) :
    Ensures (decode depth) fun m => ∀ v ∈ m.defaults, v.Proper ∧ v.nesting + 5 ≤ depth := by
  have hrecord := Json.ensures_decodeRecord record
    (fun depth draft => ∀ d ∈ draft.descriptors.getD [], ∀ v ∈ d.defaults,
      v.Proper ∧ v.nesting + 4 ≤ depth)
    (fun depth m => ∀ v ∈ m.defaults, v.Proper ∧ v.nesting + 4 ≤ depth) ?_ ?_ ?_ depth
  · refine Ensures.imp hrecord ?_
    rintro m ⟨inner, rfl, hdefaults⟩ v hv
    obtain ⟨hproper, hnesting⟩ := hdefaults v hv
    exact ⟨hproper, Nat.add_le_add_right hnesting 1⟩
  · intro depth d hd
    exact absurd hd (by simp [record])
  · intro depth field hfield
    obtain rfl := List.mem_singleton.mp hfield
    refine Field.keeps_of (Json.ensures_decodeList ClassDescriptor.ensures_decode depth) ?_
    rintro descriptors draft ⟨inner, rfl, hdescriptors⟩ _ d hd v hv
    obtain ⟨hproper, hnesting⟩ := hdescriptors d hd v hv
    exact ⟨hproper, by omega⟩
  · intro depth draft m hdraft hfinish
    obtain rfl := Except.ok.inj hfinish
    exact forall_mem_defaults.mpr hdraft

/-- **What comes of reading a manifest's own text**: the manifest, unless a default nests too deeply. -/
theorem ofText_pretty (h : ∀ v ∈ m.defaults, v.Proper ∧ v.FloatFree) :
    ofText m.toJson.pretty =
      if ∀ v ∈ m.defaults, v.nesting + 5 ≤ Json.nestingLimit then .ok m else .error (.json .tooDeep) := by
  have hfits : m.toJson.nesting ≤ Json.nestingLimit ↔
      ∀ v ∈ m.defaults, v.nesting + 5 ≤ Json.nestingLimit := by
    rw [show Json.nestingLimit = 122 + 5 from rfl, nesting_toJson_le_iff]
    simp only [Nat.add_le_add_iff_right]
  rw [ofText, Json.decodeText_pretty (decodes_toJson h), Json.within]
  simp only [hfits]
  split <;> rfl

theorem defaults_of_ofText (h : ofText text = .ok m) :
    ∀ v ∈ m.defaults, v.Proper ∧ v.nesting + 5 ≤ Json.nestingLimit := by
  unfold ofText at h
  cases hdecode : Json.decodeText decode text with
  | error fault =>
    rw [hdecode] at h
    exact absurd h (by simp [Except.mapError])
  | ok found =>
    rw [hdecode] at h
    obtain rfl : found = m := Except.ok.inj h
    exact Json.ensures_decodeText (ensures_decode _) hdecode

/-- The text of a manifest as it is written after reading. -/
def normalise (text : String) : Except LoadError String :=
  (ofText text).map fun m => m.toJson.pretty

/-- **A manifest that was read is read again from its own text**: the same descriptors in the same order,
    with all they have and have not. So what is normalised once stays as it is. Defaults with
    floating-point numbers are left out, since their digits need not come back. -/
theorem ofText_toJson (h : ofText text = .ok m) (hfloat : ∀ v ∈ m.defaults, v.FloatFree) :
    ofText m.toJson.pretty = .ok m ∧ (normalise text >>= normalise) = normalise text := by
  have hdefaults := defaults_of_ofText h
  have hagain : ofText m.toJson.pretty = .ok m := by
    rw [ofText_pretty fun v hv => ⟨(hdefaults v hv).1, hfloat v hv⟩]
    exact if_pos fun v hv => (hdefaults v hv).2
  have htext : normalise text = .ok m.toJson.pretty := by
    rw [normalise, h]
    rfl
  have hnormal : normalise m.toJson.pretty = .ok m.toJson.pretty := by
    rw [normalise, hagain]
    rfl
  refine ⟨hagain, ?_⟩
  simp only [htext, bind, Except.bind, hnormal]

/-- A default with lists, escapes and the least integer. -/
def nestedDefault : Value :=
  .object [("least", .number (.integer ⟨-0x8000000000000000, by decide⟩)),
    ("texts", .array [.string "\"\n\\", .null])]

/-- A manifest of one annotation type without targets, whose only element has that default. -/
def nested : Manifest where
  descriptors := [⟨"q.A", .annotationType, some [], none, [⟨"value", "Unit", some nestedDefault⟩], []⟩]

theorem ofText_toJson_nested :
    ofText nested.toJson.pretty = .ok nested ∧
      (normalise nested.toJson.pretty >>= normalise) = normalise nested.toJson.pretty := by
  have hdefaults : nested.defaults = [nestedDefault] := rfl
  have hless : "least" < "texts" := by decide
  have hkeys : nestedDefault.KeysIncrease := by
    refine Value.keysIncrease_object.mpr ⟨List.pairwise_pair.mpr hless, ?_⟩
    simp [Value.KeysIncrease, Value.All, Json.ItemsAll]
  have hfloat : nestedDefault.FloatFree := by
    simp [nestedDefault, Value.FloatFree, Value.All, Json.ItemsAll, Json.MembersAll]
  have hproper : ∀ v ∈ nested.defaults, v.Proper ∧ v.FloatFree := by
    rw [hdefaults, List.forall_mem_singleton]
    exact ⟨⟨by simp [nestedDefault], hkeys⟩, hfloat⟩
  have hread : ofText nested.toJson.pretty = .ok nested := by
    rw [ofText_pretty hproper]
    exact if_pos (by decide)
  exact ofText_toJson hread fun v hv => (hproper v hv).2

end Manifest

end QualifierDiscovery
