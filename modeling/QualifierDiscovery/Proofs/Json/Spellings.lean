import QualifierDiscovery.Proofs.Json.Decoders

/-!
# `Proofs.Json.Spellings` — a value is read from any of its spellings

Between the tokens of a JSON text there may be blanks. A text spells a value (`Value.Spelled`) if it is the
value's tokens with any blanks in between; the text on one line and the text over several lines are two of
the spellings (`Value.spelled_compact`, `Value.spelled_pretty`). A decoder that reads a value (`Reads`) does
so from each of them.

The members of an object may stand in any order and some may be missing. What a record's draft holds then
depends on the keys that have come, so `reads_record` asks for the draft of each set of keys and for one step
from any of them.
-/

namespace QualifierDiscovery.Json

variable {α δ : Type} {value : Value} {x : α}

/-! ## Spellings -/

mutual

/-- The text is the tokens of the value, with any blanks between them. -/
def Value.Spelled : Value → List Char → Prop
  | .null, text => text = "null".toList
  | .bool b, text => text = if b then "true".toList else "false".toList
  | .number n, text => text = n.write
  | .string s, text => text = writeString s
  | .array items, text =>
    ∃ pieces body, ItemsSpelled items pieces ∧ Separated ']' true pieces body ∧ text = '[' :: body
  | .object members, text =>
    ∃ pieces body, MembersSpelled members pieces ∧ Separated '}' true pieces body ∧ text = '{' :: body

/-- Each of the pieces spells its item. -/
def ItemsSpelled : List Value → List (List Char) → Prop
  | [], pieces => pieces = []
  | item :: rest, pieces =>
    ∃ piece others, item.Spelled piece ∧ ItemsSpelled rest others ∧ pieces = piece :: others

/-- Each of the pieces is its member's key and spells its value, with any blanks around the colon. -/
def MembersSpelled : List (String × Value) → List (List Char) → Prop
  | [], pieces => pieces = []
  | (key, value) :: rest, pieces =>
    ∃ blanks text piece others, Blanks blanks ∧ value.Spelled text ∧ IsMember key (blanks ++ text) piece ∧
      MembersSpelled rest others ∧ pieces = piece :: others

end

/-- Pieces with a comma between each two of them, and no blanks. -/
theorem separated_commas {closing : Char} (pieces : List (List Char)) :
    Separated closing true pieces ([','].intercalate pieces ++ [closing]) := by
  cases pieces with
  | nil => exact .closes blanks_nil
  | cons piece pieces =>
    obtain ⟨body, hbody, hseparated⟩ :=
      Separated.intercalate closing blanks_nil blanks_nil blanks_nil piece pieces
    rw [List.nil_append, List.nil_append] at hbody
    rw [hbody]
    exact .first blanks_nil hseparated

mutual

/-- **The text on one line spells the value.** -/
theorem Value.spelled_compact : (v : Value) → v.Spelled v.writeCompact
  | .null => rfl
  | .bool _ => rfl
  | .number _ => rfl
  | .string _ => rfl
  | .array items => ⟨_, _, itemsSpelled_compact items, separated_commas _, rfl⟩
  | .object members => ⟨_, _, membersSpelled_compact members, separated_commas _, rfl⟩

theorem itemsSpelled_compact : (items : List Value) → ItemsSpelled items (writeItems items)
  | [] => rfl
  | item :: rest => ⟨_, _, item.spelled_compact, itemsSpelled_compact rest, rfl⟩

theorem membersSpelled_compact : (members : List (String × Value)) →
    MembersSpelled members (writeMembers members)
  | [] => rfl
  | (_, value) :: rest => ⟨[], _, _, _, blanks_nil, value.spelled_compact, ⟨[], blanks_nil, rfl⟩,
      membersSpelled_compact rest, rfl⟩

end

mutual

/-- **The text over several lines spells the value.** -/
theorem Value.spelled_pretty : (v : Value) → (level : Nat) → v.Spelled (v.writePretty level)
  | .null, _ => rfl
  | .bool _, _ => rfl
  | .number _, _ => rfl
  | .string _, _ => rfl
  | .array items, level => by
    obtain ⟨body, hbracketed, hbody⟩ := exists_bracketed level '[' ']' (writeItemsPretty (level + 1) items)
    exact ⟨_, body, itemsSpelled_pretty items (level + 1), hbody, hbracketed⟩
  | .object members, level => by
    obtain ⟨body, hbracketed, hbody⟩ :=
      exists_bracketed level '{' '}' (writeMembersPretty (level + 1) members)
    exact ⟨_, body, membersSpelled_pretty members (level + 1), hbody, hbracketed⟩

theorem itemsSpelled_pretty : (items : List Value) → (level : Nat) →
    ItemsSpelled items (writeItemsPretty level items)
  | [], _ => rfl
  | item :: rest, level => ⟨_, _, item.spelled_pretty level, itemsSpelled_pretty rest level, rfl⟩

theorem membersSpelled_pretty : (members : List (String × Value)) → (level : Nat) →
    MembersSpelled members (writeMembersPretty level members)
  | [], _ => rfl
  | (key, value) :: rest, level => ⟨[' '], _, _, _, blanks_singleton rfl, value.spelled_pretty level,
      isMember_writeMember key _, membersSpelled_pretty rest level, rfl⟩

end

/-- A whole text spells the value: there may be blanks before it and behind it. -/
def Value.SpelledBy (value : Value) (text : String) : Prop :=
  ∃ before spelling after, Blanks before ∧ value.Spelled spelling ∧ Blanks after ∧
    text.toList = before ++ (spelling ++ after)

theorem Value.spelledBy_compact (v : Value) : v.SpelledBy v.compact :=
  ⟨[], _, [], blanks_nil, v.spelled_compact, blanks_nil, by simp [Value.compact]⟩

theorem Value.spelledBy_pretty (v : Value) : v.SpelledBy v.pretty :=
  ⟨[], _, [], blanks_nil, v.spelled_pretty 0, blanks_nil, by simp [Value.pretty]⟩

/-! ## Reading -/

/-- The decoder reads `x` from any spelling of the value, with any blanks before it, if the levels left
    suffice. -/
structure Reads (decode : Decoder α) (value : Value) (x : α) : Prop where
  skips : ∀ depth text, decode depth (skipBlanks text) = decode depth text
  reads : ∀ depth text, value.nesting ≤ depth → value.Spelled text → ReadsAs (decode depth) text (.ok x)

theorem Reads.reads_blanks {decode : Decoder α} {depth : Nat} {blanks text : List Char}
    (h : Reads decode value x) (hdepth : value.nesting ≤ depth) (hblanks : Blanks blanks)
    (hspelled : value.Spelled text) : ReadsAs (decode depth) (blanks ++ text) (.ok x) := by
  intro rest hrest
  rw [List.append_assoc, ← h.skips, skipBlanks_append hblanks, h.skips]
  exact h.reads depth text hdepth hspelled rest hrest

theorem reads_string (s : String) : Reads decodeString (.string s) s where
  skips depth text := by
    unfold decodeString decodeStringAs
    rw [skipBlanks_idem]
  reads depth text _ hspelled := by
    obtain rfl : text = writeString s := hspelled
    intro rest _
    rw [writeString_append]
    exact readString_written s rest

theorem reads_variant {variants : List (String × α)} {name : String}
    (h : Text.valueAt? name variants = some x) : Reads (decodeVariant variants) (.string name) x where
  skips depth text := by
    unfold decodeVariant
    rw [skipBlanks_idem]
  reads depth text _ hspelled := by
    obtain rfl : text = writeString name := hspelled
    intro rest _
    rw [writeString_append]
    show (readString (name.toList.flatMap escapedChar ++ '"' :: rest) >>= _) = _
    rw [readString_written]
    show (variantOf variants name >>= _) = _
    rw [variantOf, h]
    rfl

/-! ## Lists -/

theorem begins_of_spelled {text : List Char} (hfloat : value.FloatFree) (h : value.Spelled text) :
    ∃ c more, text = c :: more ∧ BeginsValue c := by
  -- a scalar has one spelling, the text that is written for it
  have hscalar : value.nesting = 0 → text = value.writePretty 0 →
      ∃ c more, text = c :: more ∧ BeginsValue c := by
    rintro hnesting rfl
    have hgives : Gives (readValueWith none) (value.writePretty 0) (.ok value) := gives_scalar hnesting hfloat
    exact hgives.begins
  cases value with
  | array items =>
    obtain ⟨_, body, -, -, rfl⟩ := h
    exact ⟨'[', body, rfl, by decide⟩
  | object members =>
    obtain ⟨_, body, -, -, rfl⟩ := h
    exact ⟨'{', body, rfl, by decide⟩
  | _ => exact hscalar rfl h

theorem readsItems_of_spelled {item : Decoder α} {encode : α → Value} {xs : List α} {depth : Nat}
    {pieces : List (List Char)} (h : ∀ x ∈ xs, Reads item (encode x) x)
    (hfloat : ∀ x ∈ xs, (encode x).FloatFree) (hdepth : itemsNesting (xs.map encode) ≤ depth)
    (hspelled : ItemsSpelled (xs.map encode) pieces) : ReadsItems (item depth) pieces (.ok xs) := by
  induction xs generalizing pieces with
  | nil =>
    obtain rfl : pieces = [] := hspelled
    exact .nil
  | cons x xs ih =>
    obtain ⟨piece, others, hpiece, hothers, rfl⟩ := hspelled
    obtain ⟨hlevels, hrest⟩ := Nat.max_le.mp hdepth
    have hread := (h x List.mem_cons_self).reads depth piece hlevels hpiece
    have hitems := ih (fun y hy => h y (List.mem_cons_of_mem _ hy))
      (fun y hy => hfloat y (List.mem_cons_of_mem _ hy)) hrest hothers
    exact .cons (begins_of_spelled (hfloat x List.mem_cons_self) hpiece) hread hitems

/-- **A list is read from any spelling of its items.** -/
theorem reads_list {item : Decoder α} {encode : α → Value} {xs : List α}
    (h : ∀ x ∈ xs, Reads item (encode x) x) (hfloat : ∀ x ∈ xs, (encode x).FloatFree) :
    Reads (decodeList item) (.array (xs.map encode)) xs where
  skips depth text := by
    unfold decodeList
    rw [skipBlanks_idem]
  reads depth text hdepth hspelled := by
    obtain ⟨pieces, body, hitems, hbody, rfl⟩ := hspelled
    obtain ⟨depth, rfl⟩ : ∃ d, depth = d + 1 := ⟨depth - 1, by rw [Value.nesting] at hdepth; omega⟩
    have hread := readsItems_of_spelled h hfloat (Nat.le_of_succ_le_succ hdepth) hitems
    intro rest _
    show readList (item depth) (body ++ rest) = _
    rw [readList_separated hread hbody]

/-! ## Records -/

section Records

variable {fields : List (Field δ)} {draftOf : (String → Bool) → δ} {members : List (String × Value)}
  {key : String}

/-- The draft in which the fields of some keys have been read goes on to the draft with one key more, if that
    one has not come yet. -/
def StepsDraft (fields : List (Field δ)) (draftOf : (String → Bool) → δ) (key : String) (value : Value) :
    Prop :=
  ∀ seen, seen key = false → ∃ field, fields.find? (fun field => field.key == key) = some field ∧
    field.filled (draftOf seen) = false ∧
    Reads (fun depth => field.fill depth (draftOf seen)) value
      (draftOf fun other => seen other || other == key)

/-- A field is filled by what its decoder reads. -/
theorem StepsDraft.of {optional : Bool} {get : δ → Option α} {put : α → δ → δ} {decode : Decoder α}
    (hfind : fields.find? (fun field => field.key == key) = some (.of key optional get put decode))
    (hunfilled : ∀ seen, seen key = false → get (draftOf seen) = none)
    (hput : ∀ seen, put x (draftOf seen) = draftOf fun other => seen other || other == key)
    (h : Reads decode value x) : StepsDraft fields draftOf key value := by
  intro seen hseen
  refine ⟨_, hfind, by simp [Field.of, hunfilled seen hseen], ?_, ?_⟩
  · intro depth text
    show (decode depth (skipBlanks text) >>= _) = (decode depth text >>= _)
    rw [h.skips]
  · intro depth text hdepth hspelled rest hrest
    show (decode depth (text ++ rest) >>= _) = _
    rw [h.reads depth text hdepth hspelled rest hrest, ← hput]
    rfl

/-- The members of an object fill the draft of their keys, in whatever order they stand. By induction over
    the members. -/
theorem fillsDraft_of_steps {depth : Nat} (seen : String → Bool) {pieces : List (List Char)}
    (hsteps : ∀ member ∈ members, StepsDraft fields draftOf member.1 member.2)
    (hdistinct : (members.map Prod.fst).Nodup) (hseen : ∀ member ∈ members, seen member.1 = false)
    (hdepth : membersNesting members ≤ depth) (hspelled : MembersSpelled members pieces) :
    FillsDraft fields depth (draftOf seen) pieces
      (.ok (draftOf fun key => seen key || (members.map Prod.fst).contains key)) := by
  induction members generalizing seen pieces with
  | nil =>
    obtain rfl : pieces = [] := hspelled
    have hnone : FillsDraft fields depth (draftOf seen) [] (.ok (draftOf seen)) := .nil _
    simpa using hnone
  | cons member members ih =>
    obtain ⟨key, value⟩ := member
    obtain ⟨blanks, text, piece, others, hblanks, htext, hmember, hothers, rfl⟩ := hspelled
    obtain ⟨hlevels, hrest⟩ := Nat.max_le.mp hdepth
    obtain ⟨hnew, hdistinct⟩ := List.nodup_cons.mp hdistinct
    obtain ⟨field, hfind, hunfilled, hread⟩ :=
      hsteps (key, value) List.mem_cons_self seen (hseen (key, value) List.mem_cons_self)
    refine .cons hmember hfind hunfilled (hread.reads_blanks hlevels hblanks htext) ?_
    -- no key stands twice, so those that follow have not come with this member
    have hlater : ∀ other ∈ members, (seen other.1 || other.1 == key) = false := by
      intro other hother
      have hne : other.1 ≠ key := by
        rintro rfl
        exact hnew (List.mem_map.mpr ⟨other, hother, rfl⟩)
      simp [hseen other (List.mem_cons_of_mem _ hother), hne]
    have hfilled := ih (fun other => seen other || other == key)
      (fun other hother => hsteps other (List.mem_cons_of_mem _ hother)) hdistinct hlater hrest hothers
    simpa [Bool.or_assoc] using hfilled

/-- **A record is read from any spelling of its members**, in any order. -/
theorem reads_record {record : Record δ α} (hempty : draftOf (fun _ => false) = record.empty)
    (hsteps : ∀ member ∈ members, StepsDraft record.fields draftOf member.1 member.2)
    (hdistinct : (members.map Prod.fst).Nodup)
    (hfinish : record.finish (draftOf fun key => (members.map Prod.fst).contains key) = .ok x) :
    Reads (decodeRecord record) (.object members) x where
  skips depth text := by
    unfold decodeRecord
    rw [skipBlanks_idem]
  reads depth text hdepth hspelled := by
    obtain ⟨pieces, body, hmembers, hbody, rfl⟩ := hspelled
    obtain ⟨depth, rfl⟩ : ∃ d, depth = d + 1 := ⟨depth - 1, by rw [Value.nesting] at hdepth; omega⟩
    have hfills := fillsDraft_of_steps (fun _ => false) hsteps hdistinct (fun _ _ => rfl)
      (Nat.le_of_succ_le_succ hdepth) hmembers
    rw [hempty] at hfills
    intro rest _
    rw [List.cons_append, decodeRecord_separated hfills hbody]
    simp only [Bool.false_or, Except.bind, hfinish]

/-- The value is an object of the members whose keys are kept, in any order. -/
def Value.Selects (kept : String → Bool) (table : List (String × Value)) (value : Value) : Prop :=
  ∃ members, members.Perm (table.filter fun member => kept member.1) ∧ value = .object members

theorem Value.selects_all {kept : String → Bool} {table : List (String × Value)}
    (h : ∀ key, kept key = true) : (Value.object table).Selects kept table :=
  ⟨table, by rw [List.filter_eq_self.mpr fun member _ => h member.1], rfl⟩

theorem Value.Selects.nesting_le {kept : String → Bool} {table : List (String × Value)} {depth : Nat}
    (h : value.Selects kept table) (hall : ∀ member ∈ table, member.2.nesting ≤ depth) :
    value.nesting ≤ depth + 1 := by
  obtain ⟨members, hperm, rfl⟩ := h
  rw [Value.nesting, Nat.add_le_add_iff_right, membersNesting_le_iff]
  intro member hmember
  exact hall member (List.mem_filter.mp (hperm.mem_iff.mp hmember)).1

/-- **A record is read from the members that are kept** out of all of its members: from what it is then made
    of, it is enough to know which of its keys are kept. -/
theorem reads_selected {record : Record δ α} {kept : String → Bool} {table : List (String × Value)}
    (hempty : draftOf (fun _ => false) = record.empty)
    (hsteps : ∀ member ∈ table, StepsDraft record.fields draftOf member.1 member.2)
    (hdistinct : (table.map Prod.fst).Nodup)
    (hfinish : ∀ seen, (∀ member ∈ table, seen member.1 = kept member.1) →
      record.finish (draftOf seen) = .ok x)
    (hvalue : value.Selects kept table) : Reads (decodeRecord record) value x := by
  obtain ⟨members, hperm, rfl⟩ := hvalue
  have hmem : ∀ member ∈ members, member ∈ table ∧ kept member.1 = true := fun member hmember =>
    List.mem_filter.mp (hperm.mem_iff.mp hmember)
  have hkeys : (members.map Prod.fst).Nodup := by
    rw [(hperm.map Prod.fst).nodup_iff]
    exact hdistinct.sublist (List.filter_sublist.map Prod.fst)
  refine reads_record hempty (fun member hmember => hsteps member (hmem member hmember).1) hkeys
    (hfinish _ fun member hmember => ?_)
  -- a key has come exactly if it is kept
  rw [Bool.eq_iff_iff, List.contains_iff_mem]
  constructor
  · intro hcome
    obtain ⟨other, hother, hsame⟩ := List.mem_map.mp hcome
    exact hsame ▸ (hmem other hother).2
  · intro hkept
    exact List.mem_map_of_mem (hperm.mem_iff.mpr (List.mem_filter.mpr ⟨hmember, hkept⟩))

end Records

/-- **A whole text is read as the value it spells**, if that does not nest too deeply. -/
theorem decodeText_spelled {decode : Decoder α} {text : String} (h : Reads decode value x)
    (hdepth : value.nesting ≤ nestingLimit) (hspelled : value.SpelledBy text) :
    decodeText decode text = .ok x := by
  obtain ⟨before, spelling, after, hbefore, hvalue, hafter, htext⟩ := hspelled
  have hends : EndsNumber after := by
    have hnil := hafter.endsNumber endsNumber_nil
    rwa [List.append_nil] at hnil
  have hblank : skipBlanks after = [] := by
    have hnil : skipBlanks (after ++ []) = [] := skipBlanks_append hafter
    rwa [List.append_nil] at hnil
  rw [decodeText, htext, ← List.append_assoc, h.reads_blanks hdepth hbefore hvalue after hends]
  simp only [Except.map, bind, Except.bind, hblank]
  rfl

end QualifierDiscovery.Json
