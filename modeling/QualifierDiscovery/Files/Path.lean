import QualifierDiscovery.Text.Pieces

/-!
# Paths

A path is a text whose pieces stand between slashes. Paths are compared, joined and made absolute as
texts, without looking at any file.

- `components` gives the meaning of a path: doubled and final slashes and inner dots do not count.
- `join` puts a path below another one; `absolute?` puts it below the working directory.
- `relativeTo?` gives the components of a path that follow those of another.
-/

namespace QualifierDiscovery.Path

/-- A component of a path. -/
inductive Component
  | root
  | current
  | parent
  | normal (name : String)
  deriving DecidableEq

/-- The path begins at the root. -/
def isAbsolute (path : String) : Bool := Text.startsWith "/" path

/-- The component that a piece stands for, if any, where the piece is not the first of a relative
path. -/
def componentOf? (piece : String) : Option Component :=
  if piece = "" ∨ piece = "." then none
  else if piece = ".." then some .parent
  else some (.normal piece)

/-- The components of a path. A single dot counts only as the first piece of a relative path. -/
def components (path : String) : List Component :=
  match Text.split '/' path with
  | [] => []
  | first :: rest =>
    let start : List Component :=
      if isAbsolute path then [.root]
      else if first = "." then [.current]
      else (componentOf? first).toList
    start ++ rest.filterMap componentOf?

/-- The text of a component. -/
def Component.text : Component → String
  | .root => "/"
  | .current => "."
  | .parent => ".."
  | .normal name => name

/-- A path below another one; an absolute path stands for itself. -/
def join (base path : String) : String :=
  if isAbsolute path then path
  else if base.isEmpty || Text.endsWith "/" base then base ++ path
  else base ++ "/" ++ path

/-- The path below `base` along the given names. -/
def joinAll (base : String) (names : List String) : String := names.foldl join base

/-- The absolute path of a place: the names below the root that lead to it. -/
def ofNames (names : List String) : String :=
  String.ofList (names.flatMap fun name => '/' :: name.toList)

/-- A path made absolute below the working directory, itself an absolute path. Dots and doubled
slashes are dropped, double dots are kept; exactly two slashes at the start are kept as they are,
and so is a final one. The empty path has no absolute form. -/
def absolute? (workingDirectory path : String) : Option String :=
  if path.isEmpty then none
  else
    let start :=
      if Text.startsWith "//" path && !Text.startsWith "///" path then "//"
      else if isAbsolute path then "/"
      else workingDirectory
    let names := (components path).filter fun c => c != .root && c != .current
    let joined := joinAll start (names.map Component.text)
    some (if Text.endsWith "/" path then join joined "" else joined)

/-- The components of `path` after those of `base`, if it begins with them. -/
def relativeTo? (base path : String) : Option (List Component) :=
  (components base).isPrefixOf? (components path)

/-- The last component of a path, if it is a name. -/
def fileName? (path : String) : Option String :=
  match (components path).getLast? with
  | some (.normal name) => some name
  | _ => none

end QualifierDiscovery.Path
