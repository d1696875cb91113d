/-!
# Pieces of a text

Names, paths and lists of paths are texts that a separator cuts into pieces. This module cuts them,
joins them again and tests or strips what they start or end with. Everything is defined on the list
of characters, where the core library's lemmas on lists apply.

- `split` always gives at least one piece; joining the pieces gives the text back.
- `stripStart?` and `stripEnd?` remove one occurrence of a given start or end.
-/

namespace QualifierDiscovery.Text

/-- The pieces of `text` between the occurrences of `separator`. There is always at least one. -/
def split (separator : Char) (text : String) : List String :=
  (text.toList.splitOn separator).map String.ofList

/-- The pieces with `separator` between each two of them. -/
def join (separator : Char) (pieces : List String) : String :=
  String.ofList ([separator].intercalate (pieces.map String.toList))

/-- What follows `start` in `text`, if `text` starts so. -/
def stripStart? (start text : String) : Option String :=
  (start.toList.isPrefixOf? text.toList).map String.ofList

/-- What stands before `ending` in `text`, if `text` ends so. -/
def stripEnd? (ending text : String) : Option String :=
  (ending.toList.isSuffixOf? text.toList).map String.ofList

/-- `text` begins with `start`. -/
def startsWith (start text : String) : Bool :=
  start.toList.isPrefixOf text.toList

/-- `text` ends with `ending`. -/
def endsWith (ending text : String) : Bool :=
  ending.toList.isSuffixOf text.toList

/-- `text` without the characters equal to `c` that it begins with. -/
def dropLeading (c : Char) (text : String) : String :=
  String.ofList (text.toList.dropWhile (· == c))

/-- `text` without the characters equal to `c` that it begins or ends with. -/
def trim (c : Char) (text : String) : String :=
  String.ofList ((text.toList.dropWhile (· == c)).reverse.dropWhile (· == c)).reverse

/-- Every occurrence of `old` replaced by `new`. -/
def replaceChar (old new : Char) (text : String) : String :=
  String.ofList (text.toList.map fun c => if c = old then new else c)

/-- The lines of a text: a line ends at a line feed, and a carriage return before it is dropped. A
last line without a line feed counts if it is not empty. -/
def lines (text : String) : List String :=
  match (text.toList.splitOn '\n').reverse with
  | [] => []
  | last :: ended =>
    let closed := ended.reverse.map fun line =>
      String.ofList (if line.getLast? = some '\r' then line.dropLast else line)
    if last.isEmpty then closed else closed ++ [String.ofList last]

end QualifierDiscovery.Text
