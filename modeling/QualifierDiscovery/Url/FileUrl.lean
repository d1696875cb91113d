import QualifierDiscovery.Files.Path
import QualifierDiscovery.Url.Percent

/-!
# File URLs

An absolute path has a URL with the scheme `file`, an archive one with the scheme `jar` around it.
Reading goes the other way: from any text that is a URL with the scheme `file` to the path it names.

- `ofPath?`, `ofDirectory?` and `ofArchive?` write the URL of an absolute path.
- `toPath?` reads the path of a file URL. The URL is first put into its normal form: blanks around
  it and line breaks in it are dropped, both slashes separate segments, dot segments are resolved
  and what follows a question mark or a number sign is left out. A host other than `localhost` has
  no files here.
-/

namespace QualifierDiscovery.Url

/-! ## Writing -/

/-- The path of a URL for an absolute path. -/
def pathText (path : String) : List Char :=
  match (Path.components path).filter (· != .root) with
  | [] => ['/']
  | components => components.flatMap fun c => '/' :: encodeSegment c.text

/-- The URL of an absolute path. -/
def ofPath? (path : String) : Option String :=
  if Path.isAbsolute path then some (String.ofList ("file://".toList ++ pathText path)) else none

/-- The URL of an absolute path to a directory: it ends in a slash. -/
def ofDirectory? (path : String) : Option String :=
  (ofPath? path).map fun url => if Text.endsWith "/" url then url else url ++ "/"

/-- The URL of the content of an archive at an absolute path. -/
def ofArchive? (path : String) : Option String :=
  (ofPath? path).map fun url => "jar:" ++ url ++ "!/"

/-! ## Reading -/

/-- The text without the blanks and controls around it and the tabs and line breaks in it. -/
def clean (text : List Char) : List Char :=
  let isEdge (c : Char) : Bool := c.toNat ≤ 0x20
  let trimmed := ((text.dropWhile isEdge).reverse.dropWhile isEdge).reverse
  trimmed.filter fun c => c != '\t' && c != '\n' && c != '\r'

/-- A character of a scheme after its first letter. -/
def isSchemeChar (c : Char) : Bool := c.isAlphanum || c == '+' || c == '-' || c == '.'

/-- The scheme of a URL in lower case and the text after its colon. -/
def scheme? (text : List Char) : Option (List Char × List Char) :=
  match text with
  | [] => none
  | first :: _ =>
    if first.isAlpha then
      match text.dropWhile isSchemeChar with
      | ':' :: rest => some ((text.takeWhile isSchemeChar).map Char.toLower, rest)
      | _ => none
    else none

/-- Either of the slashes that separate segments. -/
def isSlash (c : Char) : Bool := c == '/' || c == '\\'

/-- The character ends the path of a URL. -/
def endsPath (c : Char) : Bool := c == '?' || c == '#'

/-- A letter and a colon or bar: the name of a drive. -/
def isDrive : List Char → Bool
  | [letter, mark] => letter.isAlpha && (mark == ':' || mark == '|')
  | _ => false

/-- A single dot, perhaps written with percent signs. -/
def isDot (segment : List Char) : Bool :=
  segment.map Char.toLower ∈ [".".toList, "%2e".toList]

/-- Two dots, perhaps written with percent signs. -/
def isDoubleDot (segment : List Char) : Bool :=
  segment.map Char.toLower ∈
    ["..".toList, ".%2e".toList, "%2e.".toList, "%2e%2e".toList]

/-- The segments before the last one; the name of a drive is not taken away. -/
def parentSegments (segments : List (List Char)) : List (List Char) :=
  match segments.getLast? with
  | some last => if isDrive last then segments else segments.dropLast
  | none => []

/-- A segment as it is kept: the name of a drive at the start of a path is written with a colon. -/
def keptSegment (atStart : Bool) (segment : List Char) : List Char :=
  match segment with
  | [letter, mark] => if atStart && isDrive [letter, mark] then [letter, ':'] else segment
  | _ => segment

/-- The segments of a path without its dot segments. A dot segment at the end leaves an empty
one. -/
def resolveDots (done : List (List Char)) : List (List Char) → List (List Char)
  | [] => done
  | segment :: rest =>
    let ending : List (List Char) := if rest.isEmpty then [[]] else []
    if isDoubleDot segment then resolveDots (parentSegments done ++ ending) rest
    else if isDot segment then resolveDots (done ++ ending) rest
    else resolveDots (done ++ [keptSegment done.isEmpty segment]) rest

/-- The segments without the empty ones that they begin with, except for the last. -/
def dropEmptyStart : List (List Char) → List (List Char)
  | [] => []
  | [last] => [last]
  | first :: rest => if first.isEmpty then dropEmptyStart rest else first :: rest

/-- The segments of a URL's path in normal form. -/
def normalSegments (text : List Char) : List (List Char) :=
  let path := text.takeWhile fun c => !endsPath c
  let segments := match path with
    | [] => [[]]
    | first :: rest => (if isSlash first then rest else first :: rest).splitOnP isSlash
  resolveDots [] segments

/-- The host is this machine: none at all, or the local one by name. -/
def isLocalHost (host : List Char) : Bool :=
  let decoded := Text.decodeLossy (decode (Text.utf8Bytes (String.ofList host)))
  host.isEmpty || decoded.toList.map Char.toLower == "localhost".toList

/-- The host is a name that URLs admit. -/
def isHostName (host : List Char) : Bool :=
  let decoded := (Text.decodeLossy (decode (Text.utf8Bytes (String.ofList host)))).toList
  decoded.all fun c => 0x20 < c.toNat && c.toNat != 0x7F
    && !("#/:<>?@[\\]^|%".toList.contains c)

/-- The segments of the path that a file URL names, given the text after its scheme. The name of a
drive stands for a path even where a host is expected, and with one at the start of its path the URL
needs no host. -/
def fileSegments? (text : List Char) : Option (List (List Char)) :=
  match text with
  | first :: second :: rest =>
    if isSlash first && isSlash second then
      let endsHost (c : Char) : Bool := isSlash c || endsPath c
      let host := rest.takeWhile fun c => !endsHost c
      let segments := normalSegments (rest.dropWhile fun c => !endsHost c)
      if isDrive host then some (normalSegments rest)
      else if isLocalHost host then some segments
      else if isHostName host && segments.head?.any isDrive then some segments
      else none
    else some (normalSegments text)
  | text => some (normalSegments text)

/-- The path of segments read from a URL. A path that ends in the name of a drive gets a slash. -/
def pathOfSegments (segments : List (List Char)) : String :=
  let bytes := (dropEmptyStart segments).flatMap fun segment =>
    0x2F :: decode (Text.utf8Bytes (String.ofList segment))
  let ending := match bytes.reverse with
    | mark :: letter :: _ :: _ =>
      if (Char.ofNat letter.toNat).isAlpha && (mark == 0x3A || mark == 0x7C) then [0x2F] else []
    | _ => []
  Text.decodeLossy (bytes ++ ending)

/-- The path that a file URL names, if the text is one. -/
def toPath? (text : String) : Option String :=
  match scheme? (clean text.toList) with
  | some (scheme, rest) =>
    if scheme = "file".toList then (fileSegments? rest).map pathOfSegments else none
  | none => none

end QualifierDiscovery.Url
