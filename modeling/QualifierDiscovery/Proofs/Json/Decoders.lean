import QualifierDiscovery.Proofs.Json.Values

/-!
# `Proofs.Json.Decoders` — records are read as they were written

A decoder reads `x` from a value (`Decodes`) if it does so wherever the value stands and however deeply, as
long as the levels left suffice. Strings, variants, lists, optional values and records each have a lemma
for what they are read from; the lemma for records (`decodes_record`) asks how the members of the object
fill the record's draft one after the other (`Fills`).
-/

namespace QualifierDiscovery.Json

variable {α δ : Type} {value : Value} {x : α}

/-- The decoder reads `x` from what is written for the value, unless that nests too deeply. -/
def Decodes (decode : Decoder α) (value : Value) (x : α) : Prop :=
  ∀ depth level, Gives (decode depth) (value.writePretty level) (within depth value.nesting x)

theorem decodes_value {v : Value} (hfloat : v.FloatFree) (hkeys : v.KeysIncrease) :
    Decodes readValue v v :=
  readValue_written hfloat hkeys

/-! ## Strings, variants and lists -/

theorem decodes_string (s : String) : Decodes decodeString (.string s) s := by
  intro depth level
  refine ⟨⟨'"', _, rfl, by decide⟩, fun _ => rfl, ?_⟩
  intro rest _
  rw [Value.writePretty, writeString_append]
  exact readString_written s rest

theorem decodes_variant {variants : List (String × α)} {name : String}
    (h : Text.valueAt? name variants = some x) : Decodes (decodeVariant variants) (.string name) x := by
  intro depth level
  refine ⟨⟨'"', _, rfl, by decide⟩, fun _ => rfl, ?_⟩
  intro rest _
  rw [Value.writePretty, writeString_append]
  show (readString (name.toList.flatMap escapedChar ++ '"' :: rest) >>= _) = _
  rw [readString_written]
  show (variantOf variants name >>= _) = _
  rw [variantOf, h]
  rfl

theorem decodes_list {item : Decoder α} {encode : α → Value} {xs : List α}
    (h : ∀ x ∈ xs, Decodes item (encode x) x) :
    Decodes (decodeList item) (.array (xs.map encode)) xs := by
  intro depth level
  rw [Value.writePretty, writeItemsPretty_eq_map, List.map_map]
  cases depth with
  | zero =>
    obtain ⟨more, htext⟩ := exists_bracketed_eq_cons level '[' ']'
      (xs.map (Value.writePretty (level + 1) ∘ encode))
    rw [htext]
    exact ⟨⟨'[', more, rfl, by decide⟩, fun _ => rfl, fun _ _ => rfl⟩
  | succ depth =>
    obtain ⟨more, htext, hread⟩ := exists_readList (Value.writePretty (level + 1) ∘ encode)
      (fun x => (encode x).nesting) (fun x hx => h x hx depth (level + 1)) level
    rw [htext]
    refine ⟨⟨'[', more, rfl, by decide⟩, fun _ => rfl, ?_⟩
    intro rest _
    show readList (item depth) (more ++ rest) = _
    rw [hread, within, Value.nesting]
    simp only [Nat.add_le_add_iff_right, itemsNesting_le_iff, List.forall_mem_map]
    split <;> rfl

/-! ## Optional values -/

/-- Only null begins like null. -/
theorem begins_of_ne_null {v : Value} (hnull : v ≠ .null) (hfloat : v.FloatFree) (level : Nat) :
    ∃ c more, v.writePretty level = c :: more ∧ BeginsValue c ∧ c ≠ 'n' := by
  cases v with
  | null => exact absurd rfl hnull
  | bool b => cases b <;> exact ⟨_, _, rfl, by decide, by decide⟩
  | string s => exact ⟨'"', _, rfl, by decide, by decide⟩
  | array items =>
    obtain ⟨more, htext⟩ := exists_bracketed_eq_cons level '[' ']' (writeItemsPretty (level + 1) items)
    exact ⟨'[', more, htext, by decide, by decide⟩
  | object members =>
    obtain ⟨more, htext⟩ := exists_bracketed_eq_cons level '{' '}' (writeMembersPretty (level + 1) members)
    exact ⟨'{', more, htext, by decide, by decide⟩
  | number n =>
    cases n with
    | floating negative magnitude => exact absurd rfl (hfloat negative magnitude)
    | integer n =>
      rw [Value.writePretty, write_integer]
      split
      · obtain ⟨c, more, hdigits, hc⟩ := exists_toDigits_eq_cons n.value.toNat
        exact ⟨c, more, hdigits, beginsValue_of_isDigit hc, ne_of_isDigit hc rfl⟩
      · exact ⟨'-', _, rfl, by decide, by decide⟩

theorem decodeOptional_of_ne {decode : Decoder α} {depth : Nat} {c : Char} (hblank : isBlank c = false)
    (hc : c ≠ 'n') (text : List Char) :
    decodeOptional decode depth (c :: text) =
      (decode depth (c :: text)).map fun (x, rest) => (some x, rest) := by
  rw [decodeOptional, skipBlanks_cons hblank]
  split
  · next h => exact absurd h (by simp)
  · next h => exact absurd (List.cons.inj h).1 hc
  · cases decode depth (c :: text) <;> rfl

/-- A value that is not null is read as something. -/
theorem Decodes.optional {decode : Decoder α} (h : Decodes decode value x) (hnull : value ≠ .null)
    (hfloat : value.FloatFree) : Decodes (decodeOptional decode) value (some x) := by
  intro depth level
  obtain ⟨c, more, htext, hvalue, hc⟩ := begins_of_ne_null hnull hfloat level
  refine ⟨⟨c, more, htext, hvalue⟩, fun _ => rfl, ?_⟩
  intro rest hrest
  have hread := (h depth level).reads rest hrest
  rw [htext, List.cons_append] at hread ⊢
  rw [decodeOptional_of_ne hvalue.1 hc, hread, within, within]
  split <;> rfl

/-! ## Records -/

section Records

variable {fields : List (Field δ)} {draft next last : δ} {key : String}
  {members others : List (String × Value)} {depth : Nat}

/-- Reading the members one after the other fills the draft up to the last one: each key is that of a field
    not yet filled, whose reader takes the value. -/
inductive Fills (fields : List (Field δ)) : δ → List (String × Value) → δ → Prop
  | nil (draft : δ) : Fills fields draft [] draft
  | cons {draft next last : δ} {field : Field δ} {key : String} {value : Value}
    {members : List (String × Value)} (hfind : fields.find? (fun field => field.key == key) = some field)
    (hunfilled : field.filled draft = false)
    (hfill : Decodes (fun depth => field.fill depth draft) value next)
    (hrest : Fills fields next members last) : Fills fields draft ((key, value) :: members) last

theorem Fills.append (hmembers : Fills fields draft members next) (hothers : Fills fields next others last) :
    Fills fields draft (members ++ others) last := by
  induction hmembers with
  | nil => exact hothers
  | cons hfind hunfilled hfill _ ih => exact .cons hfind hunfilled hfill (ih hothers)

/-- A field is filled by what its decoder reads. -/
theorem Fills.single {optional : Bool} {get : δ → Option α} {put : α → δ → δ} {decode : Decoder α}
    (hfind : fields.find? (fun field => field.key == key) = some (.of key optional get put decode))
    (hunfilled : get draft = none) (hput : put x draft = next) (h : Decodes decode value x) :
    Fills fields draft [(key, value)] next := by
  subst hput
  have hfree : (Field.of key optional get put decode).filled draft = false := by
    simp [Field.of, hunfilled]
  refine .cons hfind hfree ?_ (.nil _)
  intro depth level
  obtain ⟨hbegins, hskips, hreads⟩ := h depth level
  refine ⟨hbegins, ?_, ?_⟩
  · intro rest
    show (decode depth (' ' :: rest) >>= _) = (decode depth rest >>= _)
    rw [hskips]
  · intro rest hrest
    show (decode depth (value.writePretty level ++ rest) >>= _) = _
    rw [hreads rest hrest, within, within]
    split <;> rfl

/-- A member for a value that may be absent. -/
def optionalMember (key : String) : Option Value → List (String × Value)
  | some value => [(key, value)]
  | none => []

theorem mem_optionalMember {member : String × Value} {value? : Option Value} :
    member ∈ optionalMember key value? ↔ ∃ value, value? = some value ∧ member = (key, value) := by
  cases value? <;> simp [optionalMember]

theorem within_max {levels others : Nat} (hlevels : levels ≤ depth) :
    within depth (max levels others) x = within depth others x := by
  simp only [within, Nat.max_le, hlevels, true_and]

/-- **The members of an object fill a draft** as they stand in the text. By induction over the filling. -/
theorem Fills.fillsDraft (h : Fills fields draft members last) (depth level : Nat) :
    FillsDraft fields depth draft (writeMembersPretty level members)
      (within depth (membersNesting members) last) := by
  induction h with
  | nil draft => exact .nil draft
  | @cons draft next last field key value members hfind hunfilled hfill hrest ih =>
    have hgives : Gives (field.fill depth draft) (value.writePretty level)
        (within depth value.nesting next) := hfill depth level
    have hmember := isMember_writeMember key (value.writePretty level)
    rw [writeMembersPretty_eq_map, List.map_cons, ← writeMembersPretty_eq_map, membersNesting]
    -- a member that is too deep ends the reading, whatever the members after it are
    by_cases hlevels : value.nesting ≤ depth
    · rw [within_of_le hlevels] at hgives
      rw [within_max hlevels]
      exact .cons hmember hfind hunfilled hgives.reads_blank ih
    · rw [within_of_not_le hlevels] at hgives
      rw [within_of_not_le (by omega)]
      exact .refused hmember hfind hunfilled hgives.reads_blank

/-- **A record is read from the object of its members.** -/
theorem decodes_record {record : Record δ α} (hfills : Fills record.fields record.empty members last)
    (hfinish : record.finish last = .ok x) : Decodes (decodeRecord record) (.object members) x := by
  intro depth level
  obtain ⟨body, hbracketed, hbody⟩ := exists_bracketed level '{' '}' (writeMembersPretty (level + 1) members)
  rw [Value.writePretty, hbracketed]
  refine ⟨⟨'{', body, rfl, by decide⟩, fun _ => rfl, ?_⟩
  intro rest _
  cases depth with
  | zero => rfl
  | succ depth =>
    rw [List.cons_append, decodeRecord_separated (hfills.fillsDraft depth (level + 1)) hbody, Value.nesting,
      within, within]
    simp only [Nat.add_le_add_iff_right]
    split
    · show (record.finish last).map _ = _
      rw [hfinish]
    · rfl

end Records

/-- A whole text that was written for a value is read from its beginning to its end. -/
theorem decodeText_pretty {decode : Decoder α} (h : Decodes decode value x) :
    decodeText decode value.pretty = within nestingLimit value.nesting x := by
  have hread := (h nestingLimit 0).reads [] endsNumber_nil
  rw [List.append_nil] at hread
  rw [decodeText, Value.pretty, String.toList_ofList, hread, within]
  split <;> rfl

end QualifierDiscovery.Json
