import QualifierDiscovery.Json.Skip
import QualifierDiscovery.Text.Order

/-!
# Decoding records from JSON

A decoder reads a JSON text straight into a type, so that the first fault in the text decides the
refusal, whether it is a fault of syntax or of type. Besides the text a decoder takes the number of
levels that the text may still nest.

- `readValue` reads any value; a repeated key keeps its last value, and keys are sorted.
- `decodeRecord` reads a record from an object or from a list of its fields.
- `decodeText` runs a decoder on a whole text.
-/

namespace QualifierDiscovery.Json

/-- Reads a value of a type from a text nested no deeper than the given number of levels. -/
abbrev Decoder (α : Type) := Nat → Reader α

/-- How deeply a text may nest. -/
def nestingLimit : Nat := 127

/-! ## Free values -/

/-- The members of an object sorted by key; a repeated key keeps its last value. -/
def sortMembers (members : List (String × Value)) : List (String × Value) :=
  members.foldl (fun sorted (key, value) => Text.putSorted key value sorted) []

/-- Reads a value whose lists and objects hold values read by `nested`, if they may hold any. -/
def readValueWith (nested : Option (Reader Value)) : Reader Value := fun text =>
  match skipBlanks text with
  | [] => .error (.ends .value)
  | c :: text =>
    if c = 'n' then do
      let ((), text) ← readLetters "ull".toList text
      .ok (.null, text)
    else if c = 't' then do
      let ((), text) ← readLetters "rue".toList text
      .ok (.bool true, text)
    else if c = 'f' then do
      let ((), text) ← readLetters "alse".toList text
      .ok (.bool false, text)
    else if c = '-' then do
      let (n, text) ← readNumber true text
      .ok (.number n, text)
    else if isDigit c then do
      let (n, text) ← readNumber false (c :: text)
      .ok (.number n, text)
    else if c = '"' then do
      let (s, text) ← readString text
      .ok (.string s, text)
    else if c = '[' then
      match nested with
      | none => .error .tooDeep
      | some value => do
        let (items, text) ← readList value text
        .ok (.array items, text)
    else if c = '{' then
      match nested with
      | none => .error .tooDeep
      | some value => do
        let (members, text) ← readObject value text
        .ok (.object (sortMembers members), text)
    else .error .expectedValue

/-- Reads any value. -/
def readValue : Decoder Value
  | 0 => readValueWith none
  | depth + 1 => readValueWith (some (readValue depth))

/-! ## Texts, lists and names -/

/-- The refusal of a text that begins with a value of another type than is wanted. A fault inside
that value comes first. -/
def mismatch (wanted : String) : List Char → Error
  | [] => .ends .value
  | c :: text =>
    let refusal (found : Except Error Found) : Error :=
      match found with
      | .ok found => .mismatch found wanted
      | .error fault => fault
    if c = 'n' then refusal ((readLetters "ull".toList text).map fun _ => .null)
    else if c = 't' then refusal ((readLetters "rue".toList text).map fun _ => .bool true)
    else if c = 'f' then refusal ((readLetters "alse".toList text).map fun _ => .bool false)
    else if c = '-' then refusal ((readNumber true text).map fun (n, _) => .number n)
    else if isDigit c then refusal ((readNumber false (c :: text)).map fun (n, _) => .number n)
    else if c = '"' then refusal ((readString text).map fun (s, _) => .string s)
    else if c = '[' then .mismatch .sequence wanted
    else if c = '{' then .mismatch .map wanted
    else .expectedValue

/-- Reads a string, which a message calls `wanted`. -/
def decodeStringAs (wanted : String) : Reader String := fun text =>
  match skipBlanks text with
  | '"' :: text => readString text
  | text => .error (mismatch wanted text)

/-- Reads a string. -/
def decodeString : Decoder String := fun _ => decodeStringAs "a string"

/-- Reads a list of items. -/
def decodeList {α : Type} (item : Decoder α) : Decoder (List α) := fun depth text =>
  match skipBlanks text with
  | '[' :: text =>
    match depth with
    | 0 => .error .tooDeep
    | depth + 1 => readList (item depth) text
  | text => .error (mismatch "a sequence" text)

/-- Reads null as nothing and everything else as a value. -/
def decodeOptional {α : Type} (value : Decoder α) : Decoder (Option α) := fun depth text =>
  match skipBlanks text with
  | [] => .error (.ends .value)
  | 'n' :: text => do
    let ((), text) ← readLetters "ull".toList text
    .ok (none, text)
  | text => do
    let (x, text) ← value depth text
    .ok (some x, text)

/-- Reads null. -/
def decodeNull : Reader Unit := fun text =>
  match skipBlanks text with
  | 'n' :: text => readLetters "ull".toList text
  | text => .error (mismatch "unit" text)

/-- The variant of a name. -/
def variantOf {α : Type} (variants : List (String × α)) (name : String) : Except Error α :=
  match Text.valueAt? name variants with
  | some variant => .ok variant
  | none => .error (.unknownVariant name (variants.map Prod.fst))

/-- Reads one of several names, as a string or as the only key of an object that holds null. -/
def decodeVariant {α : Type} (variants : List (String × α)) : Decoder α := fun depth text =>
  match skipBlanks text with
  | [] => .error (.ends .value)
  | '"' :: text => do
    let (name, text) ← readString text
    let variant ← variantOf variants name
    .ok (variant, text)
  | '{' :: text =>
    match depth with
    | 0 => .error .tooDeep
    | _ + 1 => do
      let (name, text) ← decodeStringAs "variant identifier" text
      let variant ← variantOf variants name
      let ((), text) ← readColon text
      let ((), text) ← decodeNull text
      match skipBlanks text with
      | [] => .error (.ends .object)
      | '}' :: text => .ok (variant, text)
      | _ => .error .expectedValue
  | _ => .error .expectedValue

/-! ## Records -/

/-- A field of a record that is read into a draft: a structure with what has been read so far. -/
structure Field (δ : Type) where
  key : String
  /-- The field may be missing. -/
  optional : Bool
  /-- The field has been read into the draft. -/
  filled : δ → Bool
  /-- Reads the field's value into the draft. -/
  fill : Nat → δ → Reader δ

/-- A field whose value `decode` reads and `put` puts into the draft. -/
def Field.of {δ α : Type} (key : String) (optional : Bool) (get : δ → Option α)
    (put : α → δ → δ) (decode : Decoder α) : Field δ where
  key := key
  optional := optional
  filled := fun draft => (get draft).isSome
  fill := fun depth draft text => do
    let (x, text) ← decode depth text
    .ok (put x draft, text)

/-- A record: its name in messages, its fields in their declared order, the empty draft, and the
record that a draft makes. -/
structure Record (δ α : Type) where
  name : String
  fields : List (Field δ)
  empty : δ
  finish : δ → Except Error α

/-- Reads the members of an object into a draft; unknown keys are skipped. -/
def readFields {δ : Type} (fields : List (Field δ)) (depth : Nat) :
    Nat → Bool → δ → Reader δ
  | 0, _, _, _ => .error (.ends .object)
  | count + 1, first, draft, text => do
    let (more, text) ← nextKey first text
    if more then
      let (key, text) ← readString text
      match fields.find? (fun field => field.key == key) with
      | some field =>
        if field.filled draft then .error (.duplicateField key)
        else do
          let ((), text) ← readColon text
          let (draft, text) ← field.fill depth draft text
          readFields fields depth count false draft text
      | none => do
        let ((), text) ← readColon text
        let text ← skipValue text
        readFields fields depth count false draft text
    else .ok (draft, text)

/-- Reads the items of a list into the fields of a draft, one after the other. A list that ends
early must have reached the fields that may be missing. -/
def readPositions {δ : Type} (record : String) (size depth : Nat) :
    List (Field δ) → Nat → δ → Reader δ
  | [], _, draft, text => .ok (draft, text)
  | field :: fields, position, draft, text => do
    let (more, text) ← nextItem (position == 0) text
    if more then
      let (draft, text) ← field.fill depth draft text
      readPositions record size depth fields (position + 1) draft text
    else if field.optional then
      readPositions record size depth fields (position + 1) draft text
    else .error (.tooFewFields position record size)

/-- Reads a record from an object, or from a list of its fields in their declared order. -/
def decodeRecord {δ α : Type} (record : Record δ α) : Decoder α := fun depth text =>
  match skipBlanks text with
  | '[' :: text =>
    match depth with
    | 0 => .error .tooDeep
    | depth + 1 => do
      let (draft, text) ←
        readPositions record.name record.fields.length depth record.fields 0 record.empty text
      let made ← record.finish draft
      let ((), text) ← closeList text
      .ok (made, text)
  | '{' :: text =>
    match depth with
    | 0 => .error .tooDeep
    | depth + 1 => do
      let (draft, text) ← readFields record.fields depth (text.length + 1) true record.empty text
      let made ← record.finish draft
      let ((), text) ← closeObject text
      .ok (made, text)
  | text => .error (mismatch ("struct " ++ record.name) text)

/-- The value of a required field of a draft. -/
def required {α : Type} (key : String) : Option α → Except Error α
  | some x => .ok x
  | none => .error (.missingField key)

/-! ## Whole texts -/

/-- Reads a whole text: one value and nothing but blanks after it. -/
def decodeText {α : Type} (decode : Decoder α) (text : String) : Except Error α := do
  let (x, rest) ← decode nestingLimit text.toList
  if (skipBlanks rest).isEmpty then .ok x else .error .trailingCharacters

end QualifierDiscovery.Json
