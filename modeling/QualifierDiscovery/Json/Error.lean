import QualifierDiscovery.Number.Shortest
import QualifierDiscovery.Json.Value
import QualifierDiscovery.Text.Quoted

/-!
# Why a JSON text is refused

A text is refused because it is not JSON, because it nests too deeply, or because it holds something
other than the record or list that is wanted. Each cause is a constructor; `Error.message` words it.
-/

namespace QualifierDiscovery.Json

/-- What was being read when the text ended. -/
inductive Unfinished
  | value | list | object | string
  deriving DecidableEq

/-- What stands in a text in place of what is wanted. -/
inductive Found
  | null
  | bool (b : Bool)
  | number (n : Number)
  | string (s : String)
  | sequence
  | map

/-- Why a JSON text is refused. -/
inductive Error
  | ends (inside : Unfinished)
  | expectedValue
  | expectedIdent
  | expectedColon
  | expectedListEnd
  | expectedObjectEnd
  | trailingComma
  | trailingCharacters
  | keyNotString
  | invalidNumber
  | numberOutOfRange
  | invalidEscape
  | controlCharacter
  | loneSurrogate
  | brokenSurrogatePair
  | tooDeep
  | missingField (key : String)
  | duplicateField (key : String)
  | unknownVariant (given : String) (expected : List String)
  | tooFewFields (given : Nat) (record : String) (wanted : Nat)
  | mismatch (found : Found) (wanted : String)

/-- The words for what was being read when the text ended. -/
def Unfinished.words : Unfinished → String
  | .value => "a value"
  | .list => "a list"
  | .object => "an object"
  | .string => "a string"

/-- The text of a number. -/
def Number.text : Number → String
  | .integer n => toString n.value
  | .floating negative magnitude => (if negative then "-" else "") ++ magnitude.text

/-- How a message names what was found. -/
def Found.description : Found → String
  | .null => "null"
  | .bool b => "boolean `" ++ (if b then "true" else "false") ++ "`"
  | .number (.integer n) => "integer `" ++ (Number.integer n).text ++ "`"
  | .number (.floating negative magnitude) =>
    "floating point `" ++ (Number.floating negative magnitude).text ++ "`"
  | .string s => "string " ++ Text.quoted s
  | .sequence => "sequence"
  | .map => "map"

/-- A choice of names as a message lists it. -/
def choiceOf : List String → String
  | [] => "nothing"
  | [only] => "`" ++ only ++ "`"
  | [first, second] => "`" ++ first ++ "` or `" ++ second ++ "`"
  | names => "one of " ++ ", ".intercalate (names.map fun name => "`" ++ name ++ "`")

/-- The wording of a refusal. -/
def Error.message : Error → String
  | .ends inside => "EOF while parsing " ++ inside.words
  | .expectedValue => "expected value"
  | .expectedIdent => "expected ident"
  | .expectedColon => "expected `:`"
  | .expectedListEnd => "expected `,` or `]`"
  | .expectedObjectEnd => "expected `,` or `\x7d`"
  | .trailingComma => "trailing comma"
  | .trailingCharacters => "trailing characters"
  | .keyNotString => "key must be a string"
  | .invalidNumber => "invalid number"
  | .numberOutOfRange => "number out of range"
  | .invalidEscape => "invalid escape"
  | .controlCharacter => "control character (\\u0000-\\u001F) found while parsing a string"
  | .loneSurrogate => "lone leading surrogate in hex escape"
  | .brokenSurrogatePair => "unexpected end of hex escape"
  | .tooDeep => "recursion limit exceeded"
  | .missingField key => "missing field `" ++ key ++ "`"
  | .duplicateField key => "duplicate field `" ++ key ++ "`"
  | .unknownVariant given expected =>
    "unknown variant `" ++ given ++ "`, expected " ++ choiceOf expected
  | .tooFewFields given record wanted =>
    "invalid length " ++ toString given ++ ", expected struct " ++ record ++ " with "
      ++ toString wanted ++ (if wanted = 1 then " element" else " elements")
  | .mismatch found wanted => "invalid type: " ++ found.description ++ ", expected " ++ wanted

end QualifierDiscovery.Json
