import QualifierDiscovery.Proofs.Json.Separated

/-!
# `Proofs.Json.Values` — values are read as they were written

What is written for a value is read back as that value, and the reading ends where the writing did
(`readValue_written`). The value must be one that reading can give: its numbers are integers, since the
digits of a floating-point number are another matter, and the keys of its objects increase. It must not
nest deeper than the reader allows; if it does, that is what the reader answers.

## Contents
- **Values.** `nesting` counts the levels of brackets; `All`, and with it `FloatFree` and `KeysIncrease`,
  speak of a value and all values in it.
- **Readers.** `Gives` — a reader's answer on a text, wherever the text stands.
- **Brackets.** `exists_bracketed` — what stands on the lines are pieces; `exists_readList` and
  `exists_readObject`.
- **Sorted members.** Members whose keys increase are left as they are when they are sorted.
- **Values.** `readValue_written`, by induction over the levels allowed.
-/

namespace QualifierDiscovery.Json

/-! ## Values and the values in them -/

mutual

/-- How many levels of brackets a value has. -/
def Value.nesting : Value → Nat
  | .null => 0
  | .bool _ => 0
  | .number _ => 0
  | .string _ => 0
  | .array items => itemsNesting items + 1
  | .object members => membersNesting members + 1

/-- The most levels that one of the items has. -/
def itemsNesting : List Value → Nat
  | [] => 0
  | item :: rest => max item.nesting (itemsNesting rest)

/-- The most levels that the value of a member has. -/
def membersNesting : List (String × Value) → Nat
  | [] => 0
  | (_, value) :: rest => max value.nesting (membersNesting rest)

end

theorem itemsNesting_le_iff {items : List Value} {depth : Nat} :
    itemsNesting items ≤ depth ↔ ∀ item ∈ items, item.nesting ≤ depth := by
  induction items with
  | nil => simp [itemsNesting]
  | cons item rest ih => rw [itemsNesting, Nat.max_le, ih, List.forall_mem_cons]

theorem membersNesting_le_iff {members : List (String × Value)} {depth : Nat} :
    membersNesting members ≤ depth ↔ ∀ member ∈ members, member.2.nesting ≤ depth := by
  induction members with
  | nil => simp [membersNesting]
  | cons member rest ih => rw [membersNesting, Nat.max_le, ih, List.forall_mem_cons]

mutual

/-- The property holds of a value and of every value in it. -/
def Value.All (p : Value → Prop) : Value → Prop
  | .null => p .null
  | .bool b => p (.bool b)
  | .number n => p (.number n)
  | .string s => p (.string s)
  | .array items => p (.array items) ∧ ItemsAll p items
  | .object members => p (.object members) ∧ MembersAll p members

/-- The property holds of all the items and of every value in them. -/
def ItemsAll (p : Value → Prop) : List Value → Prop
  | [] => True
  | item :: rest => item.All p ∧ ItemsAll p rest

/-- The property holds of the values of all members and of every value in them. -/
def MembersAll (p : Value → Prop) : List (String × Value) → Prop
  | [] => True
  | (_, value) :: rest => value.All p ∧ MembersAll p rest

end

theorem itemsAll_iff {p : Value → Prop} {items : List Value} :
    ItemsAll p items ↔ ∀ item ∈ items, item.All p := by
  induction items with
  | nil => simp [ItemsAll]
  | cons item rest ih => rw [ItemsAll, ih, List.forall_mem_cons]

theorem membersAll_iff {p : Value → Prop} {members : List (String × Value)} :
    MembersAll p members ↔ ∀ member ∈ members, member.2.All p := by
  induction members with
  | nil => simp [MembersAll]
  | cons member rest ih => rw [MembersAll, ih, List.forall_mem_cons]

namespace Value

theorem all_array {p : Value → Prop} {items : List Value} :
    (array items).All p ↔ p (array items) ∧ ∀ item ∈ items, item.All p := by
  rw [All, itemsAll_iff]

theorem all_object {p : Value → Prop} {members : List (String × Value)} :
    (object members).All p ↔ p (object members) ∧ ∀ member ∈ members, member.2.All p := by
  rw [All, membersAll_iff]

/-- No number in the value is a floating-point number. -/
def FloatFree : Value → Prop :=
  All fun value => ∀ negative magnitude, value ≠ number (.floating negative magnitude)

/-- In every object of the value the keys increase; so no key stands there twice. -/
def KeysIncrease : Value → Prop :=
  All fun value => ∀ members, value = object members → Text.IncreasingBy Prod.fst members

theorem floatFree_string (s : String) : (string s).FloatFree := by simp [FloatFree, All]

theorem floatFree_array {items : List Value} :
    (array items).FloatFree ↔ ∀ item ∈ items, item.FloatFree := by
  simp [FloatFree, all_array]

theorem floatFree_object {members : List (String × Value)} :
    (object members).FloatFree ↔ ∀ member ∈ members, member.2.FloatFree := by
  simp [FloatFree, all_object]

theorem keysIncrease_array {items : List Value} :
    (array items).KeysIncrease ↔ ∀ item ∈ items, item.KeysIncrease := by
  simp [KeysIncrease, all_array]

theorem keysIncrease_object {members : List (String × Value)} :
    (object members).KeysIncrease ↔
      Text.IncreasingBy Prod.fst members ∧ ∀ member ∈ members, member.2.KeysIncrease := by
  simp [KeysIncrease, all_object]

end Value

/-! ## What a reader gives for a text -/

section Readers

variable {α : Type} {text rest : List Char}

/-- What comes of a value with so many levels if no more than `depth` are allowed. -/
def within (depth levels : Nat) (x : α) : Except Error α :=
  if levels ≤ depth then .ok x else .error .tooDeep

/-- Wherever the text of a value stands, the reader answers so, and if it reads a value it reads the text
    and no more. -/
structure Gives (reader : Reader α) (text : List Char) (result : Except Error α) : Prop where
  begins : ∃ c more, text = c :: more ∧ BeginsValue c
  skips : ∀ rest, reader (' ' :: rest) = reader rest
  reads : ∀ rest, EndsNumber rest → reader (text ++ rest) = result.map fun x => (x, rest)

theorem within_of_le {depth levels : Nat} {x : α} (h : levels ≤ depth) : within depth levels x = .ok x :=
  if_pos h

theorem within_of_not_le {depth levels : Nat} {x : α} (h : ¬ levels ≤ depth) :
    within depth levels x = .error .tooDeep :=
  if_neg h

/-- A blank before the text is passed over. -/
theorem Gives.reads_blank {reader : Reader α} {result : Except Error α} (h : Gives reader text result) :
    ReadsAs reader (' ' :: text) result := by
  intro rest hrest
  rw [List.cons_append, h.skips, h.reads rest hrest]

end Readers

/-! ## Brackets -/

section Brackets

variable {α : Type} {level : Nat} {depth : Nat}

/-- **What stands between brackets are pieces**, each on a line of its own. -/
theorem exists_bracketed (level : Nat) (opening closing : Char) (texts : List (List Char)) :
    ∃ body, bracketed level opening closing texts = opening :: body ∧ Separated closing true texts body := by
  cases texts with
  | nil => exact ⟨[closing], rfl, .closes blanks_nil⟩
  | cons text texts =>
    have hline : Blanks (newLine (level + 1)) := isBlank_of_mem_newLine
    have hend : Blanks (newLine level) := isBlank_of_mem_newLine
    obtain ⟨body, hbody, hseparated⟩ :=
      Separated.intercalate closing blanks_nil hline hend text texts
    refine ⟨newLine (level + 1) ++ (text ++ body), ?_, .first hline hseparated⟩
    rw [bracketed, if_neg (by simp), ← hbody]
    simp

/-- What comes of the items of a list: the items, unless one of them nests too deeply. -/
theorem readsItems_of_gives {item : Reader α} {write : α → List Char} {levels : α → Nat} {xs : List α}
    (h : ∀ x ∈ xs, Gives item (write x) (within depth (levels x) x)) :
    ReadsItems item (xs.map write) (if ∀ x ∈ xs, levels x ≤ depth then .ok xs else .error .tooDeep) := by
  induction xs with
  | nil =>
    rw [if_pos (by simp)]
    exact .nil
  | cons x xs ih =>
    have hgives := h x List.mem_cons_self
    simp only [List.map_cons, List.forall_mem_cons]
    by_cases hlevels : levels x ≤ depth
    · have hitems := ih fun y hy => h y (List.mem_cons_of_mem _ hy)
      rw [within_of_le hlevels] at hgives
      by_cases hrest : ∀ y ∈ xs, levels y ≤ depth
      · rw [if_pos hrest] at hitems
        rw [if_pos ⟨hlevels, hrest⟩]
        exact .cons hgives.begins hgives.reads hitems
      · rw [if_neg hrest] at hitems
        rw [if_neg fun hall => hrest hall.2]
        exact .cons hgives.begins hgives.reads hitems
    · rw [within_of_not_le hlevels] at hgives
      rw [if_neg fun hall => hlevels hall.1]
      exact .refused hgives.begins hgives.reads

/-- **A list is read from its brackets.** -/
theorem exists_readList {item : Reader α} (write : α → List Char) (levels : α → Nat) {xs : List α}
    (h : ∀ x ∈ xs, Gives item (write x) (within depth (levels x) x)) (level : Nat) :
    ∃ more, bracketed level '[' ']' (xs.map write) = '[' :: more ∧ ∀ rest,
      readList item (more ++ rest) =
        if ∀ x ∈ xs, levels x ≤ depth then .ok (xs, rest) else .error .tooDeep := by
  obtain ⟨body, hbracketed, hbody⟩ := exists_bracketed level '[' ']' (xs.map write)
  refine ⟨body, hbracketed, fun rest => ?_⟩
  rw [readList_separated (readsItems_of_gives h) hbody]
  split <;> rfl

/-- A member as it is written, given what is written for its value. -/
def writeMember (key : String) (value : List Char) : List Char :=
  writeString key ++ ':' :: ' ' :: value

theorem isMember_writeMember (key : String) (value : List Char) :
    IsMember key (' ' :: value) (writeMember key value) :=
  ⟨[], blanks_nil, rfl⟩

/-- What comes of the members of an object, as of the items of a list. -/
theorem readsMembers_of_gives {value : Reader α} {write : α → List Char} {levels : α → Nat}
    {members : List (String × α)}
    (h : ∀ member ∈ members, Gives value (write member.2) (within depth (levels member.2) member.2)) :
    ReadsMembers value (members.map fun member => writeMember member.1 (write member.2))
      (if ∀ member ∈ members, levels member.2 ≤ depth then .ok members else .error .tooDeep) := by
  induction members with
  | nil =>
    rw [if_pos (by simp)]
    exact .nil
  | cons member members ih =>
    have hgives := h member List.mem_cons_self
    have hmember := isMember_writeMember member.1 (write member.2)
    simp only [List.map_cons, List.forall_mem_cons]
    by_cases hlevels : levels member.2 ≤ depth
    · have hmembers := ih fun other hother => h other (List.mem_cons_of_mem _ hother)
      rw [within_of_le hlevels] at hgives
      by_cases hrest : ∀ other ∈ members, levels other.2 ≤ depth
      · rw [if_pos hrest] at hmembers
        rw [if_pos ⟨hlevels, hrest⟩]
        exact .cons hmember hgives.reads_blank hmembers
      · rw [if_neg hrest] at hmembers
        rw [if_neg fun hall => hrest hall.2]
        exact .cons hmember hgives.reads_blank hmembers
    · rw [within_of_not_le hlevels] at hgives
      rw [if_neg fun hall => hlevels hall.1]
      exact .refused hmember hgives.reads_blank

/-- **An object is read from its brackets.** -/
theorem exists_readObject {value : Reader α} (write : α → List Char) (levels : α → Nat)
    {members : List (String × α)}
    (h : ∀ member ∈ members, Gives value (write member.2) (within depth (levels member.2) member.2))
    (level : Nat) :
    ∃ more, bracketed level '{' '}' (members.map fun member => writeMember member.1 (write member.2)) =
        '{' :: more ∧
      ∀ rest, readObject value (more ++ rest) =
        if ∀ member ∈ members, levels member.2 ≤ depth then .ok (members, rest) else .error .tooDeep := by
  obtain ⟨body, hbracketed, hbody⟩ := exists_bracketed level '{' '}'
    (members.map fun member => writeMember member.1 (write member.2))
  refine ⟨body, hbracketed, fun rest => ?_⟩
  rw [readObject_separated (readsMembers_of_gives h) hbody]
  split <;> rfl

end Brackets

/-! ## Sorted members -/

section SortMembers

variable {members : List (String × Value)}

theorem putBy_of_above {α : Type} {key : α → String} {new : α} {xs : List α}
    (h : ∀ x ∈ xs, key x < key new) : Text.putBy key new xs = xs ++ [new] := by
  induction xs with
  | nil => rfl
  | cons first rest ih =>
    have hfirst := h first List.mem_cons_self
    rw [Text.putBy, if_neg (String.lt_asymm hfirst), if_pos hfirst,
      ih fun x hx => h x (List.mem_cons_of_mem _ hx), List.cons_append]

theorem foldl_putSorted_of_increasing (sorted : List (String × Value))
    (h : Text.IncreasingBy Prod.fst (sorted ++ members)) :
    members.foldl (fun sorted (key, value) => Text.putSorted key value sorted) sorted =
      sorted ++ members := by
  induction members generalizing sorted with
  | nil => simp
  | cons member members ih =>
    have habove : ∀ x ∈ sorted, x.1 < member.1 := fun x hx =>
      (List.pairwise_append.mp h).2.2 x hx member List.mem_cons_self
    have hput : Text.putSorted member.1 member.2 sorted = sorted ++ [member] := putBy_of_above habove
    rw [List.foldl_cons]
    show List.foldl _ (Text.putSorted member.1 member.2 sorted) members = _
    rw [hput, ih _ (by simpa using h)]
    simp

/-- Members whose keys increase are sorted already. -/
theorem sortMembers_of_increasing (h : Text.IncreasingBy Prod.fst members) :
    sortMembers members = members :=
  foldl_putSorted_of_increasing [] h

end SortMembers

/-! ## Values -/

section Values

variable {nested : Option (Reader Value)} {depth level : Nat} {v : Value}

theorem ne_of_isDigit {c d : Char} (hc : isDigit c = true) (hd : isDigit d = false) : c ≠ d := by
  rintro rfl
  exact absurd (hc.symm.trans hd) (by decide)

theorem isBlank_of_isDigit {c : Char} (h : isDigit c = true) : isBlank c = false := by
  have hspace := ne_of_isDigit h (d := ' ') rfl
  have hfeed := ne_of_isDigit h (d := '\n') rfl
  have htab := ne_of_isDigit h (d := '\t') rfl
  have hreturn := ne_of_isDigit h (d := '\r') rfl
  simp [isBlank, hspace, hfeed, htab, hreturn]

theorem readValueWith_digit {c : Char} (h : isDigit c = true) (text : List Char) :
    readValueWith nested (c :: text) =
      (readNumber false (c :: text)).map fun (n, rest) => (.number n, rest) := by
  rw [← bind_ok_eq_map, readValueWith, skipBlanks_cons (isBlank_of_isDigit h)]
  simp only [if_neg (ne_of_isDigit h (d := 'n') rfl), if_neg (ne_of_isDigit h (d := 't') rfl),
    if_neg (ne_of_isDigit h (d := 'f') rfl), if_neg (ne_of_isDigit h (d := '-') rfl), if_pos h]

theorem gives_string (s : String) :
    Gives (readValueWith nested) (writeString s) (.ok (.string s)) where
  begins := ⟨'"', _, rfl, by decide⟩
  skips _ := rfl
  reads rest _ := by
    rw [writeString_append]
    show (readString (s.toList.flatMap escapedChar ++ '"' :: rest) >>= _) = _
    rw [readString_written]
    rfl

/-- The digits of a natural number begin with a digit. -/
theorem exists_toDigits_eq_cons (n : Nat) :
    ∃ c more, Nat.toDigits 10 n = c :: more ∧ isDigit c = true := by
  obtain ⟨c, more, hdigits⟩ := List.exists_cons_of_ne_nil (Nat.toDigits_ne_nil (n := n) (b := 10))
  have hmem : c ∈ Nat.toDigits 10 n := hdigits ▸ List.mem_cons_self
  exact ⟨c, more, hdigits, (isDigit_eq c).trans (Nat.isDigit_of_mem_toDigits (by decide) (by decide) hmem)⟩

theorem beginsValue_of_isDigit {c : Char} (h : isDigit c = true) : BeginsValue c :=
  ⟨isBlank_of_isDigit h, ne_of_isDigit h rfl, ne_of_isDigit h rfl⟩

theorem gives_integer (n : WideInteger) :
    Gives (readValueWith nested) (Number.integer n).write (.ok (.number (.integer n))) := by
  have hfits := n.fits
  rw [write_integer]
  split
  · next hsign =>
    obtain ⟨c, more, hdigits, hc⟩ := exists_toDigits_eq_cons n.value.toNat
    refine ⟨⟨c, more, hdigits, beginsValue_of_isDigit hc⟩, fun _ => rfl, fun rest hrest => ?_⟩
    have hread := readNumber_toDigits false (n := n.value.toNat) (by omega) hrest
    rw [hdigits, List.cons_append] at hread ⊢
    rw [readValueWith_digit hc, hread, integerNumber_of_nonneg hsign]
    rfl
  · next hsign =>
    refine ⟨⟨'-', _, rfl, by decide⟩, fun _ => rfl, fun rest hrest => ?_⟩
    show (readNumber true (Nat.toDigits 10 (-n.value).toNat ++ rest) >>= _) = _
    rw [readNumber_toDigits true (by omega) hrest, integerNumber_of_neg (by omega)]
    rfl

theorem writeItemsPretty_eq_map (level : Nat) (items : List Value) :
    writeItemsPretty level items = items.map (Value.writePretty level) := by
  induction items with
  | nil => rfl
  | cons item items ih => rw [writeItemsPretty, ih, List.map_cons]

theorem writeMembersPretty_eq_map (level : Nat) (members : List (String × Value)) :
    writeMembersPretty level members =
      members.map fun member => writeMember member.1 (member.2.writePretty level) := by
  induction members with
  | nil => rfl
  | cons member members ih =>
    rw [writeMembersPretty, ih, List.map_cons]
    rfl

/-- A value without brackets is read at any depth. -/
theorem gives_scalar (hscalar : v.nesting = 0) (hfloat : v.FloatFree) :
    Gives (readValueWith nested) (v.writePretty level) (.ok v) := by
  cases v with
  | null => exact ⟨⟨'n', _, rfl, by decide⟩, fun _ => rfl, fun _ _ => rfl⟩
  | bool b => cases b <;> exact ⟨⟨_, _, rfl, by decide⟩, fun _ => rfl, fun _ _ => rfl⟩
  | string s => exact gives_string s
  | number n =>
    cases n with
    | integer n => exact gives_integer n
    | floating negative magnitude => exact absurd rfl (hfloat negative magnitude)
  | array items => exact absurd hscalar (Nat.succ_ne_zero _)
  | object members => exact absurd hscalar (Nat.succ_ne_zero _)

theorem exists_bracketed_eq_cons (level : Nat) (opening closing : Char) (texts : List (List Char)) :
    ∃ more, bracketed level opening closing texts = opening :: more := by
  obtain ⟨body, hbracketed, -⟩ := exists_bracketed level opening closing texts
  exact ⟨body, hbracketed⟩

/-- Where no levels are left, a value with brackets is refused. -/
theorem gives_tooDeep (hbrackets : v.nesting ≠ 0) :
    Gives (readValueWith none) (v.writePretty level) (.error .tooDeep) := by
  cases v with
  | array items =>
    obtain ⟨more, htext⟩ := exists_bracketed_eq_cons level '[' ']' (writeItemsPretty (level + 1) items)
    rw [Value.writePretty, htext]
    exact ⟨⟨'[', more, rfl, by decide⟩, fun _ => rfl, fun _ _ => rfl⟩
  | object members =>
    obtain ⟨more, htext⟩ := exists_bracketed_eq_cons level '{' '}' (writeMembersPretty (level + 1) members)
    rw [Value.writePretty, htext]
    exact ⟨⟨'{', more, rfl, by decide⟩, fun _ => rfl, fun _ _ => rfl⟩
  | _ => exact absurd rfl hbrackets

theorem gives_array {value : Reader Value} {items : List Value}
    (h : ∀ item ∈ items, Gives value (item.writePretty (level + 1)) (within depth item.nesting item)) :
    Gives (readValueWith (some value)) ((Value.array items).writePretty level)
      (within (depth + 1) (Value.array items).nesting (.array items)) := by
  obtain ⟨more, htext, hread⟩ := exists_readList (Value.writePretty (level + 1)) Value.nesting h level
  rw [Value.writePretty, writeItemsPretty_eq_map, htext]
  refine ⟨⟨'[', more, rfl, by decide⟩, fun _ => rfl, fun rest _ => ?_⟩
  show (readList value (more ++ rest) >>= _) = _
  rw [hread, within, Value.nesting]
  simp only [Nat.add_le_add_iff_right, itemsNesting_le_iff]
  split <;> rfl

theorem gives_object {value : Reader Value} {members : List (String × Value)}
    (hsorted : Text.IncreasingBy Prod.fst members)
    (h : ∀ member ∈ members,
      Gives value (member.2.writePretty (level + 1)) (within depth member.2.nesting member.2)) :
    Gives (readValueWith (some value)) ((Value.object members).writePretty level)
      (within (depth + 1) (Value.object members).nesting (.object members)) := by
  obtain ⟨more, htext, hread⟩ := exists_readObject (Value.writePretty (level + 1)) Value.nesting h level
  rw [Value.writePretty, writeMembersPretty_eq_map, htext]
  refine ⟨⟨'{', more, rfl, by decide⟩, fun _ => rfl, fun rest _ => ?_⟩
  show (readObject value (more ++ rest) >>= _) = _
  rw [hread, within, Value.nesting]
  simp only [Nat.add_le_add_iff_right, membersNesting_le_iff]
  split
  · show Except.ok (Value.object (sortMembers members), rest) = _
    rw [sortMembers_of_increasing hsorted]
    rfl
  · rfl

/-- **Values are read as they were written**, whatever their size and wherever they stand. The induction is
    on the levels that are left, since a bracket spends one on what it holds. -/
theorem readValue_written (hfloat : v.FloatFree) (hkeys : v.KeysIncrease) (depth level : Nat) :
    Gives (readValue depth) (v.writePretty level) (within depth v.nesting v) := by
  induction depth generalizing v level with
  | zero =>
    by_cases hscalar : v.nesting = 0
    · rw [within, if_pos (by omega)]
      exact gives_scalar hscalar hfloat
    · rw [within, if_neg (by omega)]
      exact gives_tooDeep hscalar
  | succ depth ih =>
    cases v with
    | array items =>
      exact gives_array fun item hitem =>
        ih (Value.floatFree_array.mp hfloat item hitem) (Value.keysIncrease_array.mp hkeys item hitem) _
    | object members =>
      obtain ⟨hsorted, hmembers⟩ := Value.keysIncrease_object.mp hkeys
      exact gives_object hsorted fun member hmember =>
        ih (Value.floatFree_object.mp hfloat member hmember) (hmembers member hmember) _
    | _ => exact gives_scalar rfl hfloat

end Values

end QualifierDiscovery.Json
