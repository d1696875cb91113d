import QualifierDiscovery.Json.Decode
import QualifierDiscovery.Proofs.Json.Scalars

/-!
# `Proofs.Json.Separated` — what stands between brackets is read piece by piece

Between two brackets stand pieces with commas in between, and any blanks around the pieces and the commas
(`Separated`). The readers of items, of members and of a record's fields go from piece to piece: each has a
relation that says what comes of the pieces one after the other (`ReadsItems`, `ReadsMembers`,
`FillsDraft`), and a lemma that the reader gives just this, whatever the blanks are (`readItems_separated`,
`readMembers_separated`, `readFields_separated`). A piece that is refused ends the reading.
-/

namespace QualifierDiscovery.Json

variable {α δ : Type} {text rest : List Char}

/-! ## What a reader gives for a text -/

/-- A character that what is written for a value can begin with. -/
def BeginsValue (c : Char) : Prop := isBlank c = false ∧ c ≠ ',' ∧ c ≠ ']'

instance (c : Char) : Decidable (BeginsValue c) :=
  inferInstanceAs (Decidable (isBlank c = false ∧ c ≠ ',' ∧ c ≠ ']'))

/-- Wherever the text stands, the reader answers so, and if it reads a value it reads the text and no
    more. -/
def ReadsAs (reader : Reader α) (text : List Char) (result : Except Error α) : Prop :=
  ∀ rest, EndsNumber rest → reader (text ++ rest) = result.map fun x => (x, rest)

/-! ## Pieces between brackets -/

/-- A text of blanks. -/
def Blanks (text : List Char) : Prop := ∀ c ∈ text, isBlank c = true

theorem blanks_nil : Blanks [] := fun _ h => absurd h List.not_mem_nil

theorem blanks_singleton {c : Char} (h : isBlank c = true) : Blanks [c] :=
  fun _ hc => List.mem_singleton.mp hc ▸ h

/-- A blank does not go on with a number. -/
theorem Blanks.endsNumber {blanks : List Char} (h : Blanks blanks) (hrest : EndsNumber rest) :
    EndsNumber (blanks ++ rest) := by
  cases blanks with
  | nil => exact hrest
  | cons blank blanks =>
    have hblank := h blank List.mem_cons_self
    apply endsNumber_cons
    simp only [isBlank, Bool.or_eq_true, decide_eq_true_eq] at hblank
    rcases hblank with ((rfl | rfl) | rfl) | rfl <;> decide

/-- The text of the pieces from here to the end of the brackets: a comma stands before each piece but the
    first, and blanks around the commas and before the closing bracket. -/
inductive Separated (closing : Char) : Bool → List (List Char) → List Char → Prop
  | closes {first : Bool} {blanks : List Char} (hblanks : Blanks blanks) :
    Separated closing first [] (blanks ++ [closing])
  | first {before piece body : List Char} {pieces : List (List Char)} (hbefore : Blanks before)
    (hrest : Separated closing false pieces body) :
    Separated closing true (piece :: pieces) (before ++ (piece ++ body))
  | next {before after piece body : List Char} {pieces : List (List Char)} (hbefore : Blanks before)
    (hafter : Blanks after) (hrest : Separated closing false pieces body) :
    Separated closing false (piece :: pieces) (before ++ ',' :: (after ++ (piece ++ body)))

namespace Separated

variable {closing : Char} {first : Bool} {pieces : List (List Char)} {body : List Char}

/-- There are not more pieces than characters: behind each piece there is a comma or the end. -/
theorem length_le (h : Separated closing first pieces body) :
    pieces.length ≤ body.length ∧ (first = false → pieces.length < body.length) := by
  induction h with
  | closes => simp
  | first _ _ ih =>
    have hrest := ih.2 rfl
    simp only [List.length_append, List.length_cons]
    exact ⟨by omega, fun h => absurd h (by decide)⟩
  | next _ _ _ ih =>
    have hrest := ih.2 rfl
    simp only [List.length_append, List.length_cons]
    omega

/-- Behind a piece no number goes on. -/
theorem endsNumber (h : Separated closing false pieces body)
    (hclosing : isDigit closing = false ∧ closing ≠ '.' ∧ closing ≠ 'e' ∧ closing ≠ 'E') :
    EndsNumber (body ++ rest) := by
  cases h with
  | closes hblanks =>
    rw [List.append_assoc]
    exact hblanks.endsNumber (endsNumber_cons hclosing)
  | next hbefore _ _ =>
    rw [List.append_assoc]
    exact hbefore.endsNumber (endsNumber_cons (by decide))

/-- Pieces that are joined with one text, a comma with blanks around it. -/
theorem intercalate (closing : Char) {before after blanks : List Char} (hbefore : Blanks before)
    (hafter : Blanks after) (hblanks : Blanks blanks) (piece : List Char) (pieces : List (List Char)) :
    ∃ body, (before ++ ',' :: after).intercalate (piece :: pieces) ++ (blanks ++ [closing]) = piece ++ body ∧
      Separated closing false pieces body := by
  induction pieces generalizing piece with
  | nil => exact ⟨blanks ++ [closing], by simp, .closes hblanks⟩
  | cons second pieces ih =>
    obtain ⟨body, hbody, hseparated⟩ := ih second
    refine ⟨before ++ ',' :: (after ++ (second ++ body)), ?_, .next hbefore hafter hseparated⟩
    rw [List.intercalate_cons_cons, List.append_assoc, List.append_assoc, hbody]
    simp

end Separated

/-! ## Items -/

section Items

variable {item : Reader α} {first : Bool} {pieces : List (List Char)} {body : List Char}

/-- What comes of the pieces of a list one after the other. -/
inductive ReadsItems (item : Reader α) : List (List Char) → Except Error (List α) → Prop
  | nil : ReadsItems item [] (.ok [])
  | cons {piece : List Char} {pieces : List (List Char)} {x : α} {result : Except Error (List α)}
    (hbegins : ∃ c more, piece = c :: more ∧ BeginsValue c) (hread : ReadsAs item piece (.ok x))
    (hrest : ReadsItems item pieces result) : ReadsItems item (piece :: pieces) (result.map (x :: ·))
  | refused {piece : List Char} {pieces : List (List Char)} {fault : Error}
    (hbegins : ∃ c more, piece = c :: more ∧ BeginsValue c) (hread : ReadsAs item piece (.error fault)) :
    ReadsItems item (piece :: pieces) (.error fault)

theorem nextItem_closes {blanks : List Char} (hblanks : Blanks blanks) :
    nextItem first (blanks ++ [']'] ++ rest) = .ok (false, ']' :: rest) := by
  rw [nextItem, List.append_assoc, skipBlanks_append hblanks]
  rfl

/-- The first character of a piece tells that there is another item. -/
theorem nextItem_piece {piece : List Char} (h : Separated ']' first (piece :: pieces) body)
    (hbegins : ∃ c more, piece = c :: more ∧ BeginsValue c) (rest : List Char) :
    ∃ behind, Separated ']' false pieces behind ∧
      nextItem first (body ++ rest) = .ok (true, piece ++ (behind ++ rest)) := by
  obtain ⟨c, more, rfl, hblank, hcomma, hbracket⟩ := hbegins
  cases h with
  | first hbefore hrest =>
    refine ⟨_, hrest, ?_⟩
    rw [nextItem, List.append_assoc, skipBlanks_append hbefore, List.append_assoc, List.cons_append,
      skipBlanks_cons hblank]
    split
    · next h => exact absurd h (by simp)
    · next h => exact absurd (List.cons.inj h).1 hbracket
    · next h => exact absurd (List.cons.inj h).1 hcomma
    · rfl
  | next hbefore hafter hrest =>
    refine ⟨_, hrest, ?_⟩
    rw [nextItem, List.append_assoc, skipBlanks_append hbefore, List.cons_append, skipBlanks_cons (by decide)]
    simp only [Bool.false_eq_true, if_false]
    rw [List.append_assoc, skipBlanks_append hafter, List.append_assoc, List.cons_append,
      skipBlanks_cons hblank]
    split
    · next h => exact absurd h (by simp)
    · next h => exact absurd (List.cons.inj h).1 hbracket
    · rfl

/-- **The items of a list are read piece by piece.** By induction over the pieces. -/
theorem readItems_separated {result : Except Error (List α)} (h : ReadsItems item pieces result)
    (hbody : Separated ']' first pieces body) {count : Nat} (hcount : pieces.length < count) :
    readItems item count first (body ++ rest) = result.map fun xs => (xs, ']' :: rest) := by
  induction h generalizing first body count with
  | nil =>
    obtain ⟨count, rfl⟩ := Nat.exists_eq_add_of_lt hcount
    cases hbody with
    | closes hblanks =>
      rw [readItems, nextItem_closes hblanks]
      rfl
  | @cons _ _ _ result hbegins hread _ ih =>
    obtain ⟨count, rfl⟩ : ∃ n, count = n + 1 := ⟨count - 1, by omega⟩
    obtain ⟨behind, hbehind, hnext⟩ := nextItem_piece hbody hbegins rest
    rw [readItems, hnext]
    simp only [bind, Except.bind, if_true]
    -- a blank, a comma or the bracket follows, so the reader stops at the end of the piece
    rw [hread _ (hbehind.endsNumber (by decide))]
    simp only [Except.map]
    rw [ih hbehind (by simpa using hcount)]
    cases result <;> rfl
  | refused hbegins hread =>
    obtain ⟨count, rfl⟩ : ∃ n, count = n + 1 := ⟨count - 1, by omega⟩
    obtain ⟨behind, hbehind, hnext⟩ := nextItem_piece hbody hbegins rest
    rw [readItems, hnext]
    simp only [bind, Except.bind, if_true]
    rw [hread _ (hbehind.endsNumber (by decide))]
    rfl

/-- **A list is read behind its opening bracket**, to its end. -/
theorem readList_separated {result : Except Error (List α)} (h : ReadsItems item pieces result)
    (hbody : Separated ']' true pieces body) :
    readList item (body ++ rest) = result.map fun xs => (xs, rest) := by
  have hlength := hbody.length_le.1
  rw [readList, readItems_separated h hbody (by rw [List.length_append]; omega)]
  cases result <;> rfl

end Items

/-! ## Members -/

section Members

variable {first : Bool} {pieces : List (List Char)} {body piece value : List Char} {key : String}

/-- A piece is a member: a key, a colon with blanks before it, and the text of a value, perhaps with blanks
    at its front. -/
def IsMember (key : String) (value piece : List Char) : Prop :=
  ∃ blanks, Blanks blanks ∧ piece = writeString key ++ (blanks ++ ':' :: value)

theorem nextKey_closes {blanks : List Char} (hblanks : Blanks blanks) :
    nextKey first (blanks ++ ['}'] ++ rest) = .ok (false, '}' :: rest) := by
  rw [nextKey, List.append_assoc, skipBlanks_append hblanks]
  rfl

theorem nextKey_quote (h : Separated '}' first (('"' :: piece) :: pieces) body) (rest : List Char) :
    ∃ behind, Separated '}' false pieces behind ∧
      nextKey first (body ++ rest) = .ok (true, piece ++ (behind ++ rest)) := by
  cases h with
  | first hbefore hrest =>
    refine ⟨_, hrest, ?_⟩
    rw [nextKey, List.append_assoc, skipBlanks_append hbefore, List.append_assoc, List.cons_append,
      skipBlanks_cons (by decide)]
    rfl
  | next hbefore hafter hrest =>
    refine ⟨_, hrest, ?_⟩
    rw [nextKey, List.append_assoc, skipBlanks_append hbefore, List.cons_append, skipBlanks_cons (by decide)]
    simp only [Bool.false_eq_true, if_false]
    rw [List.append_assoc, skipBlanks_append hafter, List.append_assoc, List.cons_append,
      skipBlanks_cons (by decide)]
    rfl

/-- **The key of a member is read**, and after its colon the value is next. -/
theorem exists_nextKey (hmember : IsMember key value piece)
    (h : Separated '}' first (piece :: pieces) body) (rest : List Char) :
    ∃ behind quoted colon, Separated '}' false pieces behind ∧
      nextKey first (body ++ rest) = .ok (true, quoted) ∧ readString quoted = .ok (key, colon) ∧
      readColon colon = .ok ((), value ++ (behind ++ rest)) := by
  obtain ⟨blanks, hblanks, rfl⟩ := hmember
  rw [writeString_append] at h
  obtain ⟨behind, hbehind, hnext⟩ := nextKey_quote h rest
  refine ⟨behind, _, blanks ++ ':' :: (value ++ (behind ++ rest)), hbehind, hnext, ?_, ?_⟩
  · simp only [List.append_assoc, List.cons_append]
    exact readString_written key _
  · rw [readColon, skipBlanks_append hblanks]
    rfl

/-- What comes of the members of an object one after the other. -/
inductive ReadsMembers (reader : Reader α) : List (List Char) → Except Error (List (String × α)) → Prop
  | nil : ReadsMembers reader [] (.ok [])
  | cons {key : String} {value piece : List Char} {pieces : List (List Char)} {x : α}
    {result : Except Error (List (String × α))} (hmember : IsMember key value piece)
    (hread : ReadsAs reader value (.ok x)) (hrest : ReadsMembers reader pieces result) :
    ReadsMembers reader (piece :: pieces) (result.map ((key, x) :: ·))
  | refused {key : String} {value piece : List Char} {pieces : List (List Char)} {fault : Error}
    (hmember : IsMember key value piece) (hread : ReadsAs reader value (.error fault)) :
    ReadsMembers reader (piece :: pieces) (.error fault)

/-- **The members of an object are read piece by piece.** By induction over the pieces. -/
theorem readMembers_separated {reader : Reader α} {result : Except Error (List (String × α))}
    (h : ReadsMembers reader pieces result) (hbody : Separated '}' first pieces body) {count : Nat}
    (hcount : pieces.length < count) :
    readMembers reader count first (body ++ rest) = result.map fun members => (members, '}' :: rest) := by
  induction h generalizing first body count with
  | nil =>
    obtain ⟨count, rfl⟩ := Nat.exists_eq_add_of_lt hcount
    cases hbody with
    | closes hblanks =>
      rw [readMembers, nextKey_closes hblanks]
      rfl
  | @cons _ _ _ _ _ result hmember hread _ ih =>
    obtain ⟨count, rfl⟩ : ∃ n, count = n + 1 := ⟨count - 1, by omega⟩
    obtain ⟨behind, quoted, colon, hbehind, hnext, hkey, hcolon⟩ := exists_nextKey hmember hbody rest
    rw [readMembers, hnext]
    simp only [bind, Except.bind, if_true, hkey, hcolon]
    rw [hread _ (hbehind.endsNumber (by decide))]
    simp only [Except.map]
    rw [ih hbehind (by simpa using hcount)]
    cases result <;> rfl
  | refused hmember hread =>
    obtain ⟨count, rfl⟩ : ∃ n, count = n + 1 := ⟨count - 1, by omega⟩
    obtain ⟨behind, quoted, colon, hbehind, hnext, hkey, hcolon⟩ := exists_nextKey hmember hbody rest
    rw [readMembers, hnext]
    simp only [bind, Except.bind, if_true, hkey, hcolon]
    rw [hread _ (hbehind.endsNumber (by decide))]
    rfl

/-- **An object is read behind its opening brace**, to its end. -/
theorem readObject_separated {reader : Reader α} {result : Except Error (List (String × α))}
    (h : ReadsMembers reader pieces result) (hbody : Separated '}' true pieces body) :
    readObject reader (body ++ rest) = result.map fun members => (members, rest) := by
  have hlength := hbody.length_le.1
  rw [readObject, readMembers_separated h hbody (by rw [List.length_append]; omega)]
  cases result <;> rfl

end Members

/-! ## Fields -/

section Fields

variable {fields : List (Field δ)} {depth : Nat} {draft : δ} {first : Bool} {pieces : List (List Char)}
  {body : List Char}

/-- What becomes of a draft that the members of an object are read into one after the other: each key is that
    of a field not yet filled, whose reader takes the value. -/
inductive FillsDraft (fields : List (Field δ)) (depth : Nat) :
    δ → List (List Char) → Except Error δ → Prop
  | nil (draft : δ) : FillsDraft fields depth draft [] (.ok draft)
  | cons {draft next : δ} {field : Field δ} {key : String} {value piece : List Char}
    {pieces : List (List Char)} {result : Except Error δ} (hmember : IsMember key value piece)
    (hfind : fields.find? (fun field => field.key == key) = some field)
    (hunfilled : field.filled draft = false) (hread : ReadsAs (field.fill depth draft) value (.ok next))
    (hrest : FillsDraft fields depth next pieces result) :
    FillsDraft fields depth draft (piece :: pieces) result
  | refused {draft : δ} {field : Field δ} {key : String} {value piece : List Char}
    {pieces : List (List Char)} {fault : Error} (hmember : IsMember key value piece)
    (hfind : fields.find? (fun field => field.key == key) = some field)
    (hunfilled : field.filled draft = false)
    (hread : ReadsAs (field.fill depth draft) value (.error fault)) :
    FillsDraft fields depth draft (piece :: pieces) (.error fault)

/-- **The members of an object fill a draft piece by piece.** By induction over the filling. -/
theorem readFields_separated {result : Except Error δ} (h : FillsDraft fields depth draft pieces result)
    (hbody : Separated '}' first pieces body) {count : Nat} (hcount : pieces.length < count) :
    readFields fields depth count first draft (body ++ rest) =
      result.map fun last => (last, '}' :: rest) := by
  induction h generalizing first body count with
  | nil =>
    obtain ⟨count, rfl⟩ := Nat.exists_eq_add_of_lt hcount
    cases hbody with
    | closes hblanks =>
      rw [readFields, nextKey_closes hblanks]
      rfl
  | cons hmember hfind hunfilled hread _ ih =>
    obtain ⟨count, rfl⟩ : ∃ n, count = n + 1 := ⟨count - 1, by omega⟩
    obtain ⟨behind, quoted, colon, hbehind, hnext, hkey, hcolon⟩ := exists_nextKey hmember hbody rest
    rw [readFields, hnext]
    simp only [bind, Except.bind, if_true, hkey, hcolon, hfind, hunfilled, Bool.false_eq_true, if_false]
    rw [hread _ (hbehind.endsNumber (by decide))]
    exact ih hbehind (by simpa using hcount)
  | refused hmember hfind hunfilled hread =>
    obtain ⟨count, rfl⟩ : ∃ n, count = n + 1 := ⟨count - 1, by omega⟩
    obtain ⟨behind, quoted, colon, hbehind, hnext, hkey, hcolon⟩ := exists_nextKey hmember hbody rest
    rw [readFields, hnext]
    simp only [bind, Except.bind, if_true, hkey, hcolon, hfind, hunfilled, Bool.false_eq_true, if_false]
    rw [hread _ (hbehind.endsNumber (by decide))]
    rfl

/-- **A record is read from the pieces of an object**: the draft they fill makes it. -/
theorem decodeRecord_separated {record : Record δ α} {result : Except Error δ}
    (h : FillsDraft record.fields depth record.empty pieces result) (hbody : Separated '}' true pieces body) :
    decodeRecord record (depth + 1) ('{' :: (body ++ rest)) =
      (result.bind record.finish).map fun x => (x, rest) := by
  have hlength := hbody.length_le.1
  show (readFields record.fields depth _ true record.empty _ >>= _) = _
  rw [readFields_separated h hbody (by rw [List.length_append]; omega)]
  cases result with
  | error fault => rfl
  | ok last =>
    -- the record is made before the closing brace is taken
    show (record.finish last >>= _) = _
    cases hfinish : record.finish last with
    | error fault => simp [Except.bind, Except.map, hfinish, bind]
    | ok x => simp [Except.bind, Except.map, hfinish, bind, closeObject, skipBlanks, isBlank]

end Fields

end QualifierDiscovery.Json
