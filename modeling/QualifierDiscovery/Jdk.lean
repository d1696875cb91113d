import QualifierDiscovery.Files.FileSystem
import QualifierDiscovery.Layout
import QualifierDiscovery.Text.Classes

/-!
# Installed Java development kits

A development kit is a directory with a runtime image: a modules file, an archive of the runtime or
module files. Its boot entries are those files; only an archive among them can be searched.

- `Jdk.ofRoot?` inspects a directory.
- `JdkSearch.discover` finds the first kit at the user's choice or at the roots of installations.
-/

namespace QualifierDiscovery

/-- A development kit: its directory, its version if that is known, and its boot entries. -/
structure Jdk where
  root : String
  version? : Option String
  bootEntries : List String
  deriving DecidableEq

namespace Jdk

/-- The entries of a runtime image: the modules file, or the archive of the runtime in either of its
places, or the module files in the order of their names. -/
def bootEntries? (fs : FileSystem) (root : String) : Option (List String) :=
  let modules := Path.join root "lib/modules"
  let innerArchive := Path.join root "jre/lib/rt.jar"
  let archive := Path.join root "lib/rt.jar"
  let moduleDirectory := Path.join root "jmods"
  if !fs.isDirectory root then none
  else if fs.isFile modules then some [modules]
  else if fs.isFile innerArchive then some [innerArchive]
  else if fs.isFile archive then some [archive]
  else
    match fs.listDirectory moduleDirectory with
    | .error _ => none
    | .ok names =>
      let moduleFiles := names.filter fun name => Text.endsWith Layout.moduleSuffix name
      if moduleFiles.isEmpty then none
      else some ((Text.sortedBy id moduleFiles).map (Path.join moduleDirectory))

/-- The digits that a text begins with, of any script. -/
def leadingDigits (text : List Char) : List Char := text.takeWhile Text.isDecimalDigit

/-- The groups `.digits` that a text begins with, of which there are no more than `count`. -/
def digitGroups : Nat → List Char → List Char
  | 0, _ => []
  | _, [] => []
  | count + 1, c :: text =>
    let digits := leadingDigits text
    if c = '.' ∧ digits ≠ [] then '.' :: digits ++ digitGroups count (text.drop digits.length)
    else []

/-- The version that a text begins with: digits, then groups of a dot and digits. -/
def leadingVersion? (text : List Char) : Option (List Char) :=
  let digits := leadingDigits text
  if digits.isEmpty then none
  else some (digits ++ digitGroups text.length (text.drop digits.length))

/-- The version in a directory's name that a text begins with: `jdk`, perhaps a dash, the
version. -/
def namedVersion? : List Char → Option (List Char)
  | 'j' :: 'd' :: 'k' :: '-' :: text => leadingVersion? text
  | 'j' :: 'd' :: 'k' :: text => leadingVersion? text
  | _ => none

/-- The first version named in a path. -/
def versionInPath? : List Char → Option (List Char)
  | [] => none
  | c :: text =>
    match namedVersion? (c :: text) with
    | some version => some version
    | none => versionInPath? text

/-- The version that the lines of a release file state. -/
def statedVersion? (release : String) : Option String :=
  (Text.lines release).findSome? fun line =>
    (Text.stripStart? "JAVA_VERSION=" line).map (Text.trim '"')

/-- The version of the kit in a directory: the one that its release file states, or else the first
one named in its path. -/
def versionOf? (fs : FileSystem) (root : String) : Option String :=
  let stated := match fs.readText (Path.join root "release") with
    | .ok release => statedVersion? release
    | .error _ => none
  match stated with
  | some version => some version
  | none => (versionInPath? root.toList).map String.ofList

/-- The kit in a directory, if it holds a runtime image. -/
def ofRoot? (fs : FileSystem) (root : String) : Option Jdk :=
  (bootEntries? fs root).map fun entries => ⟨root, versionOf? fs root, entries⟩

/-- The boot entries that can be searched. -/
def bootPath (jdk : Jdk) : List String :=
  jdk.bootEntries.filter fun entry =>
    (Path.fileName? entry).any fun name => Text.endsWith ".jar" name

end Jdk

/-- Where a development kit is looked for: the user's choice, then the roots of installations. -/
structure JdkSearch where
  javaHome : Option String
  roots : List String
  deriving DecidableEq

namespace JdkSearch

/-- The paths of the entries of a directory, in the order of their names. What cannot be listed has
none. -/
def entryPaths (fs : FileSystem) (path : String) : List String :=
  match fs.listDirectory path with
  | .ok names => (Text.sortedBy id names).map (Path.join path)
  | .error _ => []

/-- The first kit at a root of installations: the root itself, or else one of its entries. -/
def findAt? (fs : FileSystem) (root : String) : Option Jdk :=
  if fs.contains root then
    match Jdk.ofRoot? fs root with
    | some jdk => some jdk
    | none => (entryPaths fs root).findSome? (Jdk.ofRoot? fs)
  else none

/-- The first development kit found: the user's choice if that is one, or else at the first root where
there is one. -/
def discover (search : JdkSearch) (fs : FileSystem) : Option Jdk :=
  match search.javaHome.bind (Jdk.ofRoot? fs) with
  | some jdk => some jdk
  | none => search.roots.findSome? (findAt? fs)

/-- All places where a kit may be found, in the order in which they are looked at. -/
def places (search : JdkSearch) (fs : FileSystem) : List String :=
  search.javaHome.toList ++ search.roots.flatMap fun root => root :: entryPaths fs root

end JdkSearch

end QualifierDiscovery
