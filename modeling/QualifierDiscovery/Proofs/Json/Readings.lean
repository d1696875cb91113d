import QualifierDiscovery.Proofs.Json.Values

/-!
# `Proofs.Json.Readings` — what is known of whatever has been read

A reader may be given any text; what it reads has some properties all the same. A value that was read nests
no deeper than was allowed, and the keys of its objects increase, since the members were sorted
(`ensures_readValue`). A list holds what its items ensure, and a record keeps what each of its fields keeps
of the draft (`ensures_decodeRecord`).

Everything is stated with `Ensures`, and proved by following the reader: `exists_of_bind_eq_ok` takes a
reading apart into the readings it consists of.
-/

namespace QualifierDiscovery.Json

variable {α β δ : Type} {depth : Nat}

/-- Whatever the reader reads has the property. -/
def Ensures (reader : Reader α) (p : α → Prop) : Prop :=
  ∀ text x rest, reader text = .ok (x, rest) → p x

theorem Ensures.imp {reader : Reader α} {p q : α → Prop} (h : Ensures reader p) (himp : ∀ x, p x → q x) :
    Ensures reader q :=
  fun text x rest hread => himp x (h text x rest hread)

theorem ensures_true (reader : Reader α) : Ensures reader fun _ => True := fun _ _ _ _ => trivial

/-- A reading in two parts succeeds if both do. -/
theorem exists_of_bind_eq_ok {first : Except Error α} {next : α → Except Error β} {result : β}
    (h : first >>= next = .ok result) : ∃ x, first = .ok x ∧ next x = .ok result := by
  cases first with
  | error fault => exact absurd h (by simp [bind, Except.bind])
  | ok x => exact ⟨x, rfl, h⟩

/-! ## Lists and objects -/

theorem ensures_readItems {item : Reader α} {p : α → Prop} (h : Ensures item p) (count : Nat)
    (first : Bool) : Ensures (readItems item count first) fun xs => ∀ x ∈ xs, p x := by
  induction count generalizing first with
  | zero =>
    intro text xs rest hread
    exact absurd hread (by simp [readItems])
  | succ count ih =>
    intro text xs rest hread
    obtain ⟨⟨more, text⟩, -, hread⟩ := exists_of_bind_eq_ok hread
    cases more with
    | false =>
      obtain ⟨rfl, -⟩ := Prod.mk.inj (Except.ok.inj hread)
      simp
    | true =>
      obtain ⟨⟨x, text⟩, hitem, hread⟩ := exists_of_bind_eq_ok hread
      obtain ⟨⟨others, text⟩, hothers, hread⟩ := exists_of_bind_eq_ok hread
      obtain ⟨rfl, -⟩ := Prod.mk.inj (Except.ok.inj hread)
      exact List.forall_mem_cons.mpr ⟨h _ _ _ hitem, ih false _ _ _ hothers⟩

theorem ensures_readList {item : Reader α} {p : α → Prop} (h : Ensures item p) :
    Ensures (readList item) fun xs => ∀ x ∈ xs, p x := by
  intro text xs rest hread
  obtain ⟨⟨items, text⟩, hitems, hread⟩ := exists_of_bind_eq_ok hread
  obtain ⟨_, -, hread⟩ := exists_of_bind_eq_ok hread
  obtain ⟨rfl, -⟩ := Prod.mk.inj (Except.ok.inj hread)
  exact ensures_readItems h _ _ _ _ _ hitems

theorem ensures_readMembers {value : Reader α} {p : α → Prop} (h : Ensures value p) (count : Nat)
    (first : Bool) : Ensures (readMembers value count first) fun members => ∀ member ∈ members, p member.2 := by
  induction count generalizing first with
  | zero =>
    intro text members rest hread
    exact absurd hread (by simp [readMembers])
  | succ count ih =>
    intro text members rest hread
    obtain ⟨⟨more, text⟩, -, hread⟩ := exists_of_bind_eq_ok hread
    cases more with
    | false =>
      obtain ⟨rfl, -⟩ := Prod.mk.inj (Except.ok.inj hread)
      simp
    | true =>
      obtain ⟨⟨key, text⟩, -, hread⟩ := exists_of_bind_eq_ok hread
      obtain ⟨⟨_, text⟩, -, hread⟩ := exists_of_bind_eq_ok hread
      obtain ⟨⟨x, text⟩, hvalue, hread⟩ := exists_of_bind_eq_ok hread
      obtain ⟨⟨others, text⟩, hothers, hread⟩ := exists_of_bind_eq_ok hread
      obtain ⟨rfl, -⟩ := Prod.mk.inj (Except.ok.inj hread)
      exact List.forall_mem_cons.mpr ⟨h _ _ _ hvalue, ih false _ _ _ hothers⟩

theorem ensures_readObject {value : Reader α} {p : α → Prop} (h : Ensures value p) :
    Ensures (readObject value) fun members => ∀ member ∈ members, p member.2 := by
  intro text members rest hread
  obtain ⟨⟨found, text⟩, hmembers, hread⟩ := exists_of_bind_eq_ok hread
  obtain ⟨_, -, hread⟩ := exists_of_bind_eq_ok hread
  obtain ⟨rfl, -⟩ := Prod.mk.inj (Except.ok.inj hread)
  exact ensures_readMembers h _ _ _ _ _ hmembers

/-! ## Values -/

section Values

variable {members sorted : List (String × Value)} {nested : Option (Reader Value)} {text rest : List Char}
  {v : Value}

theorem mem_of_mem_foldl_putSorted {member : String × Value}
    (h : member ∈ members.foldl (fun sorted (key, value) => Text.putSorted key value sorted) sorted) :
    member ∈ members ∨ member ∈ sorted := by
  induction members generalizing sorted with
  | nil => exact Or.inr h
  | cons first members ih =>
    rcases ih h with hmem | hmem
    · exact Or.inl (List.mem_cons_of_mem _ hmem)
    · rcases Text.eq_or_mem_of_mem_putBy hmem with rfl | hmem
      · exact Or.inl List.mem_cons_self
      · exact Or.inr hmem

theorem mem_of_mem_sortMembers {member : String × Value} (h : member ∈ sortMembers members) :
    member ∈ members := by
  rcases mem_of_mem_foldl_putSorted h with hmem | hmem
  · exact hmem
  · exact absurd hmem List.not_mem_nil

theorem increasing_foldl_putSorted (h : Text.IncreasingBy Prod.fst sorted) :
    Text.IncreasingBy Prod.fst
      (members.foldl (fun sorted (key, value) => Text.putSorted key value sorted) sorted) := by
  induction members generalizing sorted with
  | nil => exact h
  | cons first members ih => exact ih h.putBy

theorem increasing_sortMembers (members : List (String × Value)) :
    Text.IncreasingBy Prod.fst (sortMembers members) :=
  increasing_foldl_putSorted List.Pairwise.nil

/-- A scalar that is made of what was read nests not at all, and null is made of nothing. -/
theorem scalar_of_bind {first : Except Error (β × List Char)}
    {next : β × List Char → Except Error (Value × List Char)} (h : first >>= next = .ok (v, rest))
    (hnext : ∀ x text, ∃ scalar, next (x, text) = .ok (scalar, text) ∧ scalar.nesting = 0 ∧ scalar ≠ .null) :
    v.nesting = 0 ∧ v ≠ .null := by
  obtain ⟨⟨x, text⟩, -, hread⟩ := exists_of_bind_eq_ok h
  obtain ⟨scalar, hscalar, hnesting, hnull⟩ := hnext x text
  rw [hscalar] at hread
  obtain ⟨rfl, -⟩ := Prod.mk.inj (Except.ok.inj hread)
  exact ⟨hnesting, hnull⟩

/-- What a value can have been read as: a scalar, of which only null begins like null, or the items and
    members that a nested reader read. The cases are those of the first character. -/
theorem readValueWith_cases (h : readValueWith nested text = .ok (v, rest)) :
    (v.nesting = 0 ∧ (v = .null → ∃ more, skipBlanks text = 'n' :: more)) ∨
    (∃ value items start, nested = some value ∧ readList value start = .ok (items, rest) ∧
      v = .array items) ∨
    (∃ value members start, nested = some value ∧ readObject value start = .ok (members, rest) ∧
      v = .object (sortMembers members)) := by
  unfold readValueWith at h
  split at h
  · exact absurd h (by simp)
  next c start hstart =>
  split at h
  · next hc =>
    obtain ⟨_, -, h⟩ := exists_of_bind_eq_ok h
    obtain ⟨rfl, -⟩ := Prod.mk.inj (Except.ok.inj h)
    exact Or.inl ⟨rfl, fun _ => ⟨start, hc ▸ hstart⟩⟩
  -- the other scalars: true, false, a negative number, a number, a string
  split at h
  · have hscalar := scalar_of_bind h fun _ _ => ⟨.bool true, rfl, rfl, by simp⟩
    exact Or.inl ⟨hscalar.1, fun hnull => absurd hnull hscalar.2⟩
  split at h
  · have hscalar := scalar_of_bind h fun _ _ => ⟨.bool false, rfl, rfl, by simp⟩
    exact Or.inl ⟨hscalar.1, fun hnull => absurd hnull hscalar.2⟩
  split at h
  · have hscalar := scalar_of_bind h fun n _ => ⟨.number n, rfl, rfl, by simp⟩
    exact Or.inl ⟨hscalar.1, fun hnull => absurd hnull hscalar.2⟩
  split at h
  · have hscalar := scalar_of_bind h fun n _ => ⟨.number n, rfl, rfl, by simp⟩
    exact Or.inl ⟨hscalar.1, fun hnull => absurd hnull hscalar.2⟩
  split at h
  · have hscalar := scalar_of_bind h fun s _ => ⟨.string s, rfl, rfl, by simp⟩
    exact Or.inl ⟨hscalar.1, fun hnull => absurd hnull hscalar.2⟩
  -- the two brackets, which need a nested reader
  split at h
  · cases nested with
    | none => exact absurd h (by simp)
    | some value =>
      obtain ⟨⟨items, text⟩, hitems, h⟩ := exists_of_bind_eq_ok h
      obtain ⟨rfl, rfl⟩ := Prod.mk.inj (Except.ok.inj h)
      exact Or.inr (Or.inl ⟨value, items, start, rfl, hitems, rfl⟩)
  split at h
  · cases nested with
    | none => exact absurd h (by simp)
    | some value =>
      obtain ⟨⟨members, text⟩, hmembers, h⟩ := exists_of_bind_eq_ok h
      obtain ⟨rfl, rfl⟩ := Prod.mk.inj (Except.ok.inj h)
      exact Or.inr (Or.inr ⟨value, members, start, rfl, hmembers, rfl⟩)
  · exact absurd h (by simp)

theorem keysIncrease_of_nesting_eq_zero (h : v.nesting = 0) : v.KeysIncrease := by
  cases v with
  | array items => exact absurd h (Nat.succ_ne_zero _)
  | object members => exact absurd h (Nat.succ_ne_zero _)
  | _ => simp [Value.KeysIncrease, Value.All]

/-- **A value that was read** nests no deeper than was allowed, and its keys increase. By induction over
    the levels, of which every bracket takes one. -/
theorem ensures_readValue (depth : Nat) :
    Ensures (readValue depth) fun v => v.nesting ≤ depth ∧ v.KeysIncrease := by
  induction depth with
  | zero =>
    intro text v rest hread
    rcases readValueWith_cases hread with ⟨hscalar, -⟩ | ⟨_, _, _, hnested, -⟩ | ⟨_, _, _, hnested, -⟩
    · exact ⟨Nat.le_of_eq hscalar, keysIncrease_of_nesting_eq_zero hscalar⟩
    · exact absurd hnested (by simp)
    · exact absurd hnested (by simp)
  | succ depth ih =>
    intro text v rest hread
    -- what the brackets hold was read with one level less
    rcases readValueWith_cases hread with ⟨hscalar, -⟩ | ⟨value, items, start, hnested, hitems, rfl⟩ |
      ⟨value, members, start, hnested, hmembers, rfl⟩
    · exact ⟨by omega, keysIncrease_of_nesting_eq_zero hscalar⟩
    · obtain rfl : readValue depth = value := Option.some.inj hnested
      have hall := ensures_readList ih _ _ _ hitems
      refine ⟨?_, Value.keysIncrease_array.mpr fun item hitem => (hall item hitem).2⟩
      rw [Value.nesting, Nat.add_le_add_iff_right, itemsNesting_le_iff]
      exact fun item hitem => (hall item hitem).1
    · obtain rfl : readValue depth = value := Option.some.inj hnested
      have hall := ensures_readObject ih _ _ _ hmembers
      refine ⟨?_, Value.keysIncrease_object.mpr ⟨increasing_sortMembers members, fun member hmember =>
        (hall member (mem_of_mem_sortMembers hmember)).2⟩⟩
      rw [Value.nesting, Nat.add_le_add_iff_right, membersNesting_le_iff]
      exact fun member hmember => (hall member (mem_of_mem_sortMembers hmember)).1

/-- Null is read only where it is written. -/
theorem skipBlanks_of_readValue_null (h : readValue depth text = .ok (.null, rest)) :
    ∃ more, skipBlanks text = 'n' :: more := by
  have hwith : ∃ nested, readValueWith nested text = .ok (.null, rest) := by
    cases depth with
    | zero => exact ⟨_, h⟩
    | succ depth => exact ⟨_, h⟩
  obtain ⟨nested, hwith⟩ := hwith
  rcases readValueWith_cases hwith with ⟨-, hnull⟩ | ⟨_, _, _, -, -, hother⟩ | ⟨_, _, _, -, -, hother⟩
  · exact hnull rfl
  · exact absurd hother (by simp)
  · exact absurd hother (by simp)

/-- A value that was read where null would be nothing: it is not null, and its keys increase. -/
structure Value.Proper (v : Value) : Prop where
  ne_null : v ≠ .null
  keysIncrease : v.KeysIncrease

theorem ensures_decodeOptional (depth : Nat) :
    Ensures (decodeOptional readValue depth) fun found =>
      ∀ v, found = some v → v.Proper ∧ v.nesting ≤ depth := by
  intro text found rest hread
  unfold decodeOptional at hread
  split at hread
  · exact absurd hread (by simp)
  · obtain ⟨_, -, hread⟩ := exists_of_bind_eq_ok hread
    obtain ⟨rfl, -⟩ := Prod.mk.inj (Except.ok.inj hread)
    exact fun v hv => absurd hv (by simp)
  · next hn =>
    obtain ⟨⟨v, text⟩, hvalue, hread⟩ := exists_of_bind_eq_ok hread
    obtain ⟨rfl, -⟩ := Prod.mk.inj (Except.ok.inj hread)
    obtain ⟨hnesting, hkeys⟩ := ensures_readValue depth _ _ _ hvalue
    rintro _ ⟨rfl⟩
    refine ⟨⟨?_, hkeys⟩, hnesting⟩
    rintro rfl
    obtain ⟨more, hmore⟩ := skipBlanks_of_readValue_null hvalue
    rw [skipBlanks_idem] at hmore
    exact hn more hmore

end Values

/-! ## Lists and records -/

theorem ensures_decodeList {item : Decoder α} {p : Nat → α → Prop} (h : ∀ depth, Ensures (item depth) (p depth))
    (depth : Nat) :
    Ensures (decodeList item depth) fun xs => ∃ inner, depth = inner + 1 ∧ ∀ x ∈ xs, p inner x := by
  intro text xs rest hread
  unfold decodeList at hread
  split at hread
  · cases depth with
    | zero => exact absurd hread (by simp)
    | succ depth => exact ⟨depth, rfl, ensures_readList (h depth) _ _ _ hread⟩
  · exact absurd hread (by simp)

section Records

variable {fields : List (Field δ)} {invariant : δ → Prop}

/-- Whatever the field reads into a draft keeps the invariant. -/
def Field.Keeps (field : Field δ) (depth : Nat) (invariant : δ → Prop) : Prop :=
  ∀ draft, invariant draft → Ensures (field.fill depth draft) invariant

theorem Field.keeps_of {key : String} {optional : Bool} {get : δ → Option β} {put : β → δ → δ}
    {decode : Decoder β} {p : β → Prop} (h : Ensures (decode depth) p)
    (hput : ∀ x draft, p x → invariant draft → invariant (put x draft)) :
    (Field.of key optional get put decode).Keeps depth invariant := by
  intro draft hdraft text next rest hread
  obtain ⟨⟨x, text⟩, hdecode, hread⟩ := exists_of_bind_eq_ok hread
  obtain ⟨rfl, -⟩ := Prod.mk.inj (Except.ok.inj hread)
  exact hput x draft (h _ _ _ hdecode) hdraft

theorem ensures_readFields (h : ∀ field ∈ fields, field.Keeps depth invariant) (count : Nat) (first : Bool)
    {draft : δ} (hdraft : invariant draft) :
    Ensures (readFields fields depth count first draft) invariant := by
  induction count generalizing first draft with
  | zero =>
    intro text last rest hread
    exact absurd hread (by simp [readFields])
  | succ count ih =>
    intro text last rest hread
    obtain ⟨⟨more, text⟩, -, hread⟩ := exists_of_bind_eq_ok hread
    cases more with
    | false =>
      obtain ⟨rfl, -⟩ := Prod.mk.inj (Except.ok.inj hread)
      exact hdraft
    | true =>
      obtain ⟨⟨key, text⟩, -, hread⟩ := exists_of_bind_eq_ok hread
      dsimp only at hread
      split at hread
      · next field hfind =>
        -- a field that was filled before would be an error
        split at hread
        · exact absurd hread (by simp)
        · obtain ⟨⟨_, text⟩, -, hread⟩ := exists_of_bind_eq_ok hread
          obtain ⟨⟨next, text⟩, hfill, hread⟩ := exists_of_bind_eq_ok hread
          have hnext := h field (List.mem_of_find?_eq_some hfind) draft hdraft _ _ _ hfill
          exact ih false hnext _ _ _ hread
      · obtain ⟨⟨_, text⟩, -, hread⟩ := exists_of_bind_eq_ok hread
        obtain ⟨text, -, hread⟩ := exists_of_bind_eq_ok hread
        exact ih false hdraft _ _ _ hread

theorem ensures_readPositions (h : ∀ field ∈ fields, field.Keeps depth invariant) (name : String)
    (size position : Nat) {draft : δ} (hdraft : invariant draft) :
    Ensures (readPositions name size depth fields position draft) invariant := by
  induction fields generalizing position draft with
  | nil =>
    intro text last rest hread
    obtain ⟨rfl, -⟩ := Prod.mk.inj (Except.ok.inj hread)
    exact hdraft
  | cons field fields ih =>
    have hfields : ∀ other ∈ fields, other.Keeps depth invariant :=
      fun other hother => h other (List.mem_cons_of_mem _ hother)
    intro text last rest hread
    obtain ⟨⟨more, text⟩, -, hread⟩ := exists_of_bind_eq_ok hread
    cases more with
    | true =>
      obtain ⟨⟨next, text⟩, hfill, hread⟩ := exists_of_bind_eq_ok hread
      exact ih hfields (position + 1) (h field List.mem_cons_self draft hdraft _ _ _ hfill) _ _ _ hread
    | false =>
      simp only [Bool.false_eq_true, if_false] at hread
      split at hread
      · exact ih hfields (position + 1) hdraft _ _ _ hread
      · exact absurd hread (by simp)

/-- What was made of a draft, whatever closes the record after it. -/
theorem exists_draft_of_finish {record : Record δ α} {drafts : Except Error (δ × List Char)}
    {close : Reader Unit} {x : α} {rest : List Char}
    (h : (drafts >>= fun filled => record.finish filled.1 >>= fun made =>
      close filled.2 >>= fun closed => .ok (made, closed.2)) = .ok (x, rest)) :
    ∃ draft text, drafts = .ok (draft, text) ∧ record.finish draft = .ok x := by
  obtain ⟨⟨draft, text⟩, hdraft, h⟩ := exists_of_bind_eq_ok h
  obtain ⟨made, hmade, h⟩ := exists_of_bind_eq_ok h
  obtain ⟨_, -, h⟩ := exists_of_bind_eq_ok h
  obtain ⟨rfl, -⟩ := Prod.mk.inj (Except.ok.inj h)
  exact ⟨draft, text, hdraft, hmade⟩

/-- **A record has what its fields keep of the draft**, whether it was read from an object or from a list. -/
theorem ensures_decodeRecord (record : Record δ α) (invariant : Nat → δ → Prop) (p : Nat → α → Prop)
    (hempty : ∀ depth, invariant depth record.empty)
    (hkeeps : ∀ depth, ∀ field ∈ record.fields, field.Keeps depth (invariant depth))
    (hfinish : ∀ depth draft x, invariant depth draft → record.finish draft = .ok x → p depth x)
    (depth : Nat) :
    Ensures (decodeRecord record depth) fun x => ∃ inner, depth = inner + 1 ∧ p inner x := by
  intro text x rest hread
  unfold decodeRecord at hread
  split at hread
  · cases depth with
    | zero => exact absurd hread (by simp)
    | succ depth =>
      obtain ⟨draft, _, hdraft, hmade⟩ := exists_draft_of_finish hread
      have hinvariant := ensures_readPositions (hkeeps depth) _ _ _ (hempty depth) _ _ _ hdraft
      exact ⟨depth, rfl, hfinish depth draft x hinvariant hmade⟩
  · cases depth with
    | zero => exact absurd hread (by simp)
    | succ depth =>
      obtain ⟨draft, _, hdraft, hmade⟩ := exists_draft_of_finish hread
      have hinvariant := ensures_readFields (hkeeps depth) _ _ (hempty depth) _ _ _ hdraft
      exact ⟨depth, rfl, hfinish depth draft x hinvariant hmade⟩
  · exact absurd hread (by simp)

end Records

theorem ensures_decodeText {decode : Decoder α} {p : α → Prop} (h : Ensures (decode nestingLimit) p)
    {text : String} {x : α} (hread : decodeText decode text = .ok x) : p x := by
  obtain ⟨⟨found, rest⟩, hdecode, hread⟩ := exists_of_bind_eq_ok hread
  dsimp only at hread
  split at hread
  · obtain rfl := Except.ok.inj hread
    exact h _ _ _ hdecode
  · exact absurd hread (by simp)

end QualifierDiscovery.Json
