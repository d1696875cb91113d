import QualifierDiscovery.Json.Error

/-!
# Reading JSON

A reader takes the text still to be read and gives a value with the text after it, or the first
reason to refuse the text. This module reads the parts that every JSON text is made of: blanks,
literal names, strings, numbers, lists and objects.

- `readString` reads a string after its opening quote.
- `readNumber` reads a number after its minus sign, if it has one.
- `readList` and `readObject` read lists and objects whose items another reader reads.
-/

namespace QualifierDiscovery.Json

/-- Takes the text still to be read; gives a value and the text after it. -/
abbrev Reader (α : Type) := List Char → Except Error (α × List Char)

/-! ## Blanks and literal names -/

/-- The four blanks of JSON. -/
def isBlank (c : Char) : Bool := c = ' ' || c = '\n' || c = '\t' || c = '\r'

/-- The text without the blanks it begins with. -/
def skipBlanks (text : List Char) : List Char := text.dropWhile isBlank

/-- Reads the given letters and nothing else. -/
def readLetters : List Char → Reader Unit
  | [], text => .ok ((), text)
  | _ :: _, [] => .error (.ends .value)
  | letter :: letters, c :: text =>
    if c = letter then readLetters letters text else .error .expectedIdent

/-! ## Strings -/

/-- The value of a hexadecimal digit. -/
def hexValue? (c : Char) : Option Nat :=
  if '0' ≤ c ∧ c ≤ '9' then some (c.toNat - '0'.toNat)
  else if 'a' ≤ c ∧ c ≤ 'f' then some (c.toNat - 'a'.toNat + 10)
  else if 'A' ≤ c ∧ c ≤ 'F' then some (c.toNat - 'A'.toNat + 10)
  else none

/-- The value of four hexadecimal digits. -/
def hexQuad? (a b c d : Char) : Option Nat :=
  match hexValue? a, hexValue? b, hexValue? c, hexValue? d with
  | some a, some b, some c, some d => some (a * 4096 + b * 256 + c * 16 + d)
  | _, _, _, _ => none

/-- The text has at least four bytes in UTF-8. -/
def hasFourBytes (text : List Char) : Bool :=
  4 ≤ (text.take 4).foldl (fun size c => size + c.utf8Size) 0

/-- Reads the four digits after a `\u`. A text too short for them has ended inside the string. -/
def readHexQuad : Reader Nat
  | a :: b :: c :: d :: text =>
    match hexQuad? a b c d with
    | some n => .ok (n, text)
    | none => .error .invalidEscape
  | text => if hasFourBytes text then .error .invalidEscape else .error (.ends .string)

/-- A leading surrogate: the first half of a character past U+FFFF. -/
def isLeadingSurrogate (n : Nat) : Bool := 0xD800 ≤ n && n ≤ 0xDBFF

/-- A trailing surrogate: the second half of a character past U+FFFF. -/
def isTrailingSurrogate (n : Nat) : Bool := 0xDC00 ≤ n && n ≤ 0xDFFF

/-- Reads what follows a leading surrogate: another `\u` escape with a trailing one. -/
def readSecondHalf (leading : Nat) : Reader Char
  | [] => .error (.ends .string)
  | '\\' :: [] => .error (.ends .string)
  | '\\' :: 'u' :: text => do
    let (trailing, text) ← readHexQuad text
    if isTrailingSurrogate trailing then
      .ok (Char.ofNat (0x10000 + (leading - 0xD800) * 1024 + (trailing - 0xDC00)), text)
    else .error .loneSurrogate
  | _ => .error .brokenSurrogatePair

/-- Reads a `\u` escape after its `u`. -/
def readUnicodeEscape : Reader Char := fun text => do
  let (n, text) ← readHexQuad text
  if isTrailingSurrogate n then .error .loneSurrogate
  else if isLeadingSurrogate n then readSecondHalf n text
  else .ok (Char.ofNat n, text)

/-- The character that a one-letter escape stands for. -/
def shortEscape? : Char → Option Char
  | '"' => some '"'
  | '\\' => some '\\'
  | '/' => some '/'
  | 'b' => some '\x08'
  | 'f' => some '\x0c'
  | 'n' => some '\n'
  | 'r' => some '\r'
  | 't' => some '\t'
  | _ => none

/-- Reads an escape after its backslash. -/
def readEscape : Reader Char
  | [] => .error (.ends .string)
  | 'u' :: text => readUnicodeEscape text
  | c :: text =>
    match shortEscape? c with
    | some c => .ok (c, text)
    | none => .error .invalidEscape

/-- The characters of a string after its opening quote, of which there are less than `count`. -/
def readChars : Nat → Reader (List Char)
  | 0, _ => .error (.ends .string)
  | _, [] => .error (.ends .string)
  | count + 1, c :: text =>
    if c = '"' then .ok ([], text)
    else if c = '\\' then do
      let (c, text) ← readEscape text
      let (chars, text) ← readChars count text
      .ok (c :: chars, text)
    else if c.toNat < 0x20 then .error .controlCharacter
    else do
      let (chars, text) ← readChars count text
      .ok (c :: chars, text)

/-- Reads a string after its opening quote. Every character of the string takes at least one of the
text, so the text's own length is a bound that is never reached. -/
def readString : Reader String := fun text => do
  let (chars, text) ← readChars (text.length + 1) text
  .ok (String.ofList chars, text)

/-! ## Numbers -/

/-- A decimal digit. -/
def isDigit (c : Char) : Bool := '0' ≤ c && c ≤ '9'

/-- The value of a decimal digit. -/
def digitValue (c : Char) : Nat := c.toNat - '0'.toNat

/-- The digits that a text begins with, and the text after them. -/
def splitDigits (text : List Char) : List Char × List Char :=
  (text.takeWhile isDigit, text.dropWhile isDigit)

/-- Digits are appended to a significand as long as it fits 64 bits; the others are left over. -/
def appendDigits : Nat → List Char → Nat × List Char
  | significand, [] => (significand, [])
  | significand, digit :: digits =>
    let next := significand * 10 + digitValue digit
    if next < 0x10000000000000000 then appendDigits next digits else (significand, digit :: digits)

/-- The floating-point magnitude nearest to a power of ten, up to 10 ^ 308. -/
def powerOfTen (n : Nat) : Binary64 := (Binary64.ofNat? (Nat.pow 10 n)).getD Binary64.zero

/-- A magnitude divided by a power of ten, in rounded steps of at most 308 places. -/
def divideByPower (x : Binary64) (places : Nat) : Binary64 :=
  if places ≤ 308 then (x.div? (powerOfTen places)).getD Binary64.zero
  else if x.isZero then x
  else divideByPower ((x.div? (powerOfTen 308)).getD Binary64.zero) (places - 308)
termination_by places

/-- The floating-point number `significand · 10 ^ exponent`: the significand is rounded first and
then scaled by a rounded power of ten. -/
def floatingNumber (negative : Bool) (significand : Nat) (exponent : Int) :
    Except Error Number :=
  let rounded := (Binary64.ofNat? significand).getD Binary64.zero
  if exponent < 0 then .ok (.floating negative (divideByPower rounded (-exponent).toNat))
  else if exponent ≤ 308 then
    match rounded.mul? (powerOfTen exponent.toNat) with
    | some product => .ok (.floating negative product)
    | none => .error .numberOutOfRange
  else if rounded.isZero then .ok (.floating negative rounded)
  else .error .numberOutOfRange

/-- Reads an exponent after its `e`. An exponent past 32 bits makes the number zero or too large. -/
def readExponent (negative : Bool) (significand : Nat) (start : Int) : Reader Number := fun text =>
  let (falling, text) := match text with
    | '+' :: text => (false, text)
    | '-' :: text => (true, text)
    | text => (false, text)
  match splitDigits text with
  | ([], []) => .error (.ends .value)
  | ([], _) => .error .invalidNumber
  | (digits, text) =>
    let size := digits.foldl (fun n digit => n * 10 + digitValue digit) 0
    if 0x80000000 ≤ size then
      if significand ≠ 0 ∧ !falling then .error .numberOutOfRange
      else .ok (.floating negative Binary64.zero, text)
    else do
      let n ← floatingNumber negative significand (if falling then start - size else start + size)
      .ok (n, text)

/-- Reads the rest of a number whose digits so far are known not to make an integer. -/
def readExponentOrEnd (negative : Bool) (significand : Nat) (exponent : Int) : Reader Number
  | 'e' :: text => readExponent negative significand exponent text
  | 'E' :: text => readExponent negative significand exponent text
  | text => do
    let n ← floatingNumber negative significand exponent
    .ok (n, text)

/-- Reads a fraction after its point. Digits that no longer fit the significand are dropped. -/
def readFraction (negative : Bool) (significand : Nat) (exponent : Int) : Reader Number :=
  fun text =>
  match splitDigits text with
  | ([], []) => .error (.ends .value)
  | ([], _) => .error .invalidNumber
  | (digits, text) =>
    let (significand, dropped) := appendDigits significand digits
    readExponentOrEnd negative significand (exponent - (digits.length - dropped.length : Nat)) text

/-- The number whose digits are those of an integer and nothing else. A negative zero and a negative
integer below the range of 64 bits are floating-point numbers. -/
def integerNumber (negative : Bool) (significand : Nat) : Except Error Number :=
  if negative then
    if h : 0 < significand ∧ significand ≤ 0x8000000000000000 then
      .ok (.integer ⟨-(significand : Int), by omega⟩)
    else floatingNumber true significand 0
  else
    if h : significand < 0x10000000000000000 then .ok (.integer ⟨(significand : Int), by omega⟩)
    else floatingNumber false significand 0

/-- Reads what follows the digits before the point. `dropped` counts digits that did not fit. -/
def readAfterDigits (negative : Bool) (significand dropped : Nat) : Reader Number
  | '.' :: text => readFraction negative significand dropped text
  | 'e' :: text => readExponent negative significand dropped text
  | 'E' :: text => readExponent negative significand dropped text
  | text => do
    let n ← if dropped = 0 then integerNumber negative significand
      else floatingNumber negative significand dropped
    .ok (n, text)

/-- Reads a number after its minus sign, if it has one. A zero before other digits is refused. -/
def readNumber (negative : Bool) : Reader Number := fun text =>
  match splitDigits text with
  | ([], []) => .error (.ends .value)
  | ([], _) => .error .invalidNumber
  | (['0'], text) => readAfterDigits negative 0 0 text
  | ('0' :: _, _) => .error .invalidNumber
  | (digits, text) =>
    let (significand, dropped) := appendDigits 0 digits
    readAfterDigits negative significand dropped.length text

/-! ## Lists and objects -/

/-- Whether another item follows in a list, and the text from there on. -/
def nextItem (first : Bool) (text : List Char) : Except Error (Bool × List Char) :=
  match skipBlanks text with
  | [] => .error (.ends .list)
  | ']' :: text => .ok (false, ']' :: text)
  | ',' :: text =>
    if first then .ok (true, ',' :: text)
    else
      match skipBlanks text with
      | [] => .error (.ends .value)
      | ']' :: _ => .error .trailingComma
      | text => .ok (true, text)
  | text => if first then .ok (true, text) else .error .expectedListEnd

/-- Reads the end of a list all of whose wanted items have been read. -/
def closeList : Reader Unit := fun text =>
  match skipBlanks text with
  | [] => .error (.ends .list)
  | ']' :: text => .ok ((), text)
  | ',' :: text =>
    match skipBlanks text with
    | ']' :: _ => .error .trailingComma
    | _ => .error .trailingCharacters
  | _ => .error .trailingCharacters

/-- The items of a list after its opening bracket, of which there are less than `count`. -/
def readItems {α : Type} (item : Reader α) : Nat → Bool → Reader (List α)
  | 0, _, _ => .error (.ends .list)
  | count + 1, first, text => do
    let (more, text) ← nextItem first text
    if more then
      let (x, text) ← item text
      let (xs, text) ← readItems item count false text
      .ok (x :: xs, text)
    else .ok ([], text)

/-- Reads a list after its opening bracket. Every item takes at least one character. -/
def readList {α : Type} (item : Reader α) : Reader (List α) := fun text => do
  let (items, text) ← readItems item (text.length + 1) true text
  let ((), text) ← closeList text
  .ok (items, text)

/-- Whether another key follows in an object: then the text after its opening quote, else the text
from the end of the object on. -/
def nextKey (first : Bool) (text : List Char) : Except Error (Bool × List Char) :=
  match skipBlanks text with
  | [] => .error (.ends .object)
  | '}' :: text => .ok (false, '}' :: text)
  | ',' :: text =>
    if first then .error .keyNotString
    else
      match skipBlanks text with
      | [] => .error (.ends .value)
      | '"' :: text => .ok (true, text)
      | '}' :: _ => .error .trailingComma
      | _ => .error .keyNotString
  | '"' :: text => if first then .ok (true, text) else .error .expectedObjectEnd
  | _ => if first then .error .keyNotString else .error .expectedObjectEnd

/-- Reads the colon between a key and its value. -/
def readColon : Reader Unit := fun text =>
  match skipBlanks text with
  | [] => .error (.ends .object)
  | ':' :: text => .ok ((), text)
  | _ => .error .expectedColon

/-- Reads the end of an object. -/
def closeObject : Reader Unit := fun text =>
  match skipBlanks text with
  | [] => .error (.ends .object)
  | '}' :: text => .ok ((), text)
  | ',' :: _ => .error .trailingComma
  | _ => .error .trailingCharacters

/-- The members of an object after its opening brace, of which there are less than `count`, in the
order of the text. -/
def readMembers {α : Type} (value : Reader α) : Nat → Bool → Reader (List (String × α))
  | 0, _, _ => .error (.ends .object)
  | count + 1, first, text => do
    let (more, text) ← nextKey first text
    if more then
      let (key, text) ← readString text
      let ((), text) ← readColon text
      let (x, text) ← value text
      let (members, text) ← readMembers value count false text
      .ok ((key, x) :: members, text)
    else .ok ([], text)

/-- Reads an object after its opening brace. Every member takes at least one character. -/
def readObject {α : Type} (value : Reader α) : Reader (List (String × α)) := fun text => do
  let (members, text) ← readMembers value (text.length + 1) true text
  let ((), text) ← closeObject text
  .ok (members, text)

end QualifierDiscovery.Json
