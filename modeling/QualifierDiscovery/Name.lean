import QualifierDiscovery.Text.Classes
import QualifierDiscovery.Text.Pieces

/-!
# Dotted names

A class is known by a dotted name: identifiers with a dot between each two of them. The last one is
the simple name, what stands before it the name of the package.

- `isQualified` decides whether a text is such a name.
- `simple` and `package?` take a text apart at its last dot, whether it is a name or not.
-/

namespace QualifierDiscovery.Name

/-- A character that an identifier may begin with. -/
def startsIdentifier (c : Char) : Bool :=
  Text.isAlphabetic c || c == '_' || c == '$'

/-- A character that an identifier may go on with. -/
def continuesIdentifier (c : Char) : Bool :=
  Text.isAlphabetic c || Text.isNumeric c || c == '_' || c == '$'

/-- The text is an identifier. -/
def isIdentifier (text : String) : Bool :=
  match text.toList with
  | [] => false
  | first :: rest => startsIdentifier first && rest.all continuesIdentifier

/-- The pieces of a text between its dots. -/
def segments (name : String) : List String := Text.split '.' name

/-- The text is a dotted name: each of its pieces is an identifier. -/
def isQualified (name : String) : Bool := (segments name).all isIdentifier

/-- What follows the last dot: the whole text if it has none. -/
def simple (name : String) : String :=
  String.ofList (name.toList.reverse.takeWhile (· != '.')).reverse

/-- What stands before the last dot, if the text has one. -/
def package? (name : String) : Option String :=
  match name.toList.reverse.dropWhile (· != '.') with
  | [] => none
  | _ :: before => some (String.ofList before.reverse)

end QualifierDiscovery.Name
