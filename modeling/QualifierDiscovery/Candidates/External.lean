import QualifierDiscovery.Files.Walk
import QualifierDiscovery.Layout

/-!
# External candidates

The source files below a directory of the user's give candidates: the names of the directories that
lead to a file and the file's own name without its suffix, with a dot between each two of them.

- `candidateName?` gives the name of one file.
- `externalNames` lists the names of all files below a directory, in the order of their paths.
-/

namespace QualifierDiscovery

/-- The names of path components, if all of them are names. -/
def normalNames? : List Path.Component → Option (List String)
  | [] => some []
  | .normal name :: rest => (normalNames? rest).map (name :: ·)
  | _ :: _ => none

/-- The name of the class whose source file this is, for a file below the root of a source tree. -/
def candidateName? (layout : Layout) (root file : String) : Option String := do
  let components ← Path.relativeTo? root file
  let names ← normalNames? components
  let fileName ← names.getLast?
  let stem ← layout.sourceStem? fileName
  some (Text.join '.' (names.dropLast ++ [stem]))

/-- The names of the classes whose source files lie below a directory. A name occurs as often as
there are files that give it. -/
def externalNames (fs : FileSystem) (layout : Layout) (root : String) : List String :=
  (fs.filesBelow root).filterMap fun names =>
    candidateName? layout root (Path.joinAll root names)

end QualifierDiscovery
