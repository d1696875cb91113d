import QualifierDiscovery.Json.Error

/-!
# Writing JSON

A value is written on one line without blanks, or over several lines with two blanks of indentation
for each level. Inside strings the quote, the backslash and the control characters below U+0020 are
escaped and everything else stands for itself.
-/

namespace QualifierDiscovery.Json

/-- A hexadecimal digit in lower case. -/
def hexDigit (n : Nat) : Char := Nat.digitChar n

/-- One character as it is written inside a string. -/
def escapedChar (c : Char) : List Char :=
  if c = '"' then ['\\', '"']
  else if c = '\\' then ['\\', '\\']
  else if c = '\x08' then ['\\', 'b']
  else if c = '\x0c' then ['\\', 'f']
  else if c = '\n' then ['\\', 'n']
  else if c = '\r' then ['\\', 'r']
  else if c = '\t' then ['\\', 't']
  else if c.toNat < 0x20 then
    ['\\', 'u', '0', '0', hexDigit (c.toNat / 16), hexDigit (c.toNat % 16)]
  else [c]

/-- A text as a JSON string. -/
def writeString (text : String) : List Char :=
  '"' :: text.toList.flatMap escapedChar ++ ['"']

/-- A number as it is written. -/
def Number.write (n : Number) : List Char := n.text.toList

mutual

/-- A value on one line. -/
def Value.writeCompact : Value → List Char
  | .null => "null".toList
  | .bool b => if b then "true".toList else "false".toList
  | .number n => n.write
  | .string s => writeString s
  | .array items => '[' :: [','].intercalate (writeItems items) ++ [']']
  | .object members => '\x7b' :: [','].intercalate (writeMembers members) ++ ['\x7d']

/-- The items of an array, each on one line. -/
def writeItems : List Value → List (List Char)
  | [] => []
  | item :: rest => item.writeCompact :: writeItems rest

/-- The members of an object, each on one line. -/
def writeMembers : List (String × Value) → List (List Char)
  | [] => []
  | (key, value) :: rest => (writeString key ++ ':' :: value.writeCompact) :: writeMembers rest

end

/-- A line feed and the indentation of a level. -/
def newLine (level : Nat) : List Char := '\n' :: List.replicate (2 * level) ' '

/-- Texts between brackets, one on each line of the next level; nothing between empty brackets. -/
def bracketed (level : Nat) (opening closing : Char) (texts : List (List Char)) : List Char :=
  if texts.isEmpty then [opening, closing]
  else
    opening :: newLine (level + 1) ++ (',' :: newLine (level + 1)).intercalate texts
      ++ newLine level ++ [closing]

mutual

/-- A value over several lines, the first of which is already at `level`. -/
def Value.writePretty (level : Nat) : Value → List Char
  | .null => "null".toList
  | .bool b => if b then "true".toList else "false".toList
  | .number n => n.write
  | .string s => writeString s
  | .array items => bracketed level '[' ']' (writeItemsPretty (level + 1) items)
  | .object members => bracketed level '\x7b' '\x7d' (writeMembersPretty (level + 1) members)

/-- The items of an array at `level`. -/
def writeItemsPretty (level : Nat) : List Value → List (List Char)
  | [] => []
  | item :: rest => item.writePretty level :: writeItemsPretty level rest

/-- The members of an object at `level`. -/
def writeMembersPretty (level : Nat) : List (String × Value) → List (List Char)
  | [] => []
  | (key, value) :: rest =>
    (writeString key ++ ':' :: ' ' :: value.writePretty level) :: writeMembersPretty level rest

end

/-- The text of a value on one line. -/
def Value.compact (value : Value) : String := String.ofList value.writeCompact

/-- The text of a value over several lines. -/
def Value.pretty (value : Value) : String := String.ofList (value.writePretty 0)

end QualifierDiscovery.Json
