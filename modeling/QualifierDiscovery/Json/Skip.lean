import QualifierDiscovery.Json.Reader

/-!
# Skipping JSON values

The value of an unknown field is skipped: it has to be JSON, but nothing is made of it. So it may
nest to any depth, its numbers may be of any size and its surrogates need no partner.

- `skipValue` skips one value. Brackets still open are kept on a stack, not in nested calls.
-/

namespace QualifierDiscovery.Json

/-- An opening bracket whose closing one is still to come. -/
inductive Bracket
  | list
  | object
  deriving DecidableEq

/-- The character that closes a bracket. -/
def Bracket.closing : Bracket → Char
  | .list => ']'
  | .object => '}'

/-- The refusal of a text that ends inside a bracket. -/
def Bracket.unfinished : Bracket → Error
  | .list => .ends .list
  | .object => .ends .object

/-- The refusal of a text that goes on with neither a comma nor the end. -/
def Bracket.expectedEnd : Bracket → Error
  | .list => .expectedListEnd
  | .object => .expectedObjectEnd

/-- The text after a string, of less than `count` characters, whose opening quote has been read. -/
def skipChars : Nat → List Char → Except Error (List Char)
  | 0, _ => .error (.ends .string)
  | _, [] => .error (.ends .string)
  | count + 1, c :: text =>
    if c = '"' then .ok text
    else if c = '\\' then
      match text with
      | [] => .error (.ends .string)
      | 'u' :: text => do
        let (_, text) ← readHexQuad text
        skipChars count text
      | c :: text =>
        if (shortEscape? c).isSome then skipChars count text else .error .invalidEscape
    else if c.toNat < 0x20 then .error .controlCharacter
    else skipChars count text

/-- The text after a string whose opening quote has been read. -/
def skipString (text : List Char) : Except Error (List Char) :=
  skipChars (text.length + 1) text

/-- The text after an exponent whose `e` has been read. -/
def skipExponent (text : List Char) : Except Error (List Char) :=
  let text := match text with
    | '+' :: text => text
    | '-' :: text => text
    | text => text
  match splitDigits text with
  | ([], _) => .error .invalidNumber
  | (_, text) => .ok text

/-- The text after what may follow the digits of a number. -/
def skipExponentOrEnd : List Char → Except Error (List Char)
  | 'e' :: text => skipExponent text
  | 'E' :: text => skipExponent text
  | text => .ok text

/-- The text after a number whose minus sign, if it has one, has been read. -/
def skipNumber (text : List Char) : Except Error (List Char) :=
  let afterDigits : List Char → Except Error (List Char)
    | '.' :: text =>
      match splitDigits text with
      | ([], _) => .error .invalidNumber
      | (_, text) => skipExponentOrEnd text
    | text => skipExponentOrEnd text
  match splitDigits text with
  | ([], _) => .error .invalidNumber
  | (['0'], text) => afterDigits text
  | ('0' :: _, _) => .error .invalidNumber
  | (_, text) => afterDigits text

/-- The text after a value that is neither a list nor an object and begins with `c`. -/
def skipScalar (c : Char) (text : List Char) : Except Error (List Char) :=
  if c = 'n' then do let ((), text) ← readLetters "ull".toList text; .ok text
  else if c = 't' then do let ((), text) ← readLetters "rue".toList text; .ok text
  else if c = 'f' then do let ((), text) ← readLetters "alse".toList text; .ok text
  else if c = '-' then skipNumber text
  else if isDigit c then skipNumber (c :: text)
  else if c = '"' then skipString text
  else .error .expectedValue

/-- The text after the key and the colon of a member. -/
def skipKey (text : List Char) : Except Error (List Char) :=
  match skipBlanks text with
  | [] => .error (.ends .object)
  | '"' :: text => do
    let text ← skipString text
    let ((), text) ← readColon text
    .ok text
  | _ => .error .keyNotString

mutual

/-- Skips a value and what the open brackets around it still demand, in less than `count` steps. -/
def skipOpening : Nat → List Bracket → List Char → Except Error (List Char)
  | 0, _, _ => .error (.ends .value)
  | count + 1, stack, text =>
    match skipBlanks text with
    | [] => .error (.ends .value)
    | '[' :: text =>
      match skipBlanks text with
      | [] => .error (.ends .list)
      | ']' :: text => skipClosing count stack text
      | text => skipOpening count (.list :: stack) text
    | '{' :: text =>
      match skipBlanks text with
      | [] => .error (.ends .object)
      | '}' :: text => skipClosing count stack text
      | text => do
        let text ← skipKey text
        skipOpening count (.object :: stack) text
    | c :: text => do
      let text ← skipScalar c text
      skipClosing count stack text

/-- Skips what the open brackets demand after a value, in less than `count` steps. -/
def skipClosing : Nat → List Bracket → List Char → Except Error (List Char)
  | _, [], text => .ok text
  | 0, _ :: _, _ => .error (.ends .value)
  | count + 1, bracket :: stack, text =>
    match skipBlanks text with
    | [] => .error bracket.unfinished
    | c :: text =>
      if c = ',' then
        match bracket with
        | .list => skipOpening count (.list :: stack) text
        | .object => do
          let text ← skipKey text
          skipOpening count (.object :: stack) text
      else if c = bracket.closing then skipClosing count stack text
      else .error bracket.expectedEnd

end

/-- The text after one value. Of two steps one takes a character at least, so the count is never
reached. -/
def skipValue (text : List Char) : Except Error (List Char) :=
  skipOpening (2 * text.length + 2) [] text

end QualifierDiscovery.Json
