import QualifierDiscovery.Archive.Directory
import QualifierDiscovery.Error
import QualifierDiscovery.Files.FileSystem
import QualifierDiscovery.Package
import QualifierDiscovery.SearchPath

/-!
# Locating a qualifier package

The first entry of the search path that holds the package: an archive with an entry below it, or a
directory with the package's segments one below the other.

- `locate` finds the location and reports entries that are no paths.
-/

namespace QualifierDiscovery

/-- Where a package is: the archive that holds it, or its own directory. Paths are absolute. -/
inductive Location
  | archive (path : String)
  | directory (path : String)
  deriving DecidableEq

namespace Location

/-- The path of the archive or directory. -/
def path : Location → String
  | .archive path => path
  | .directory path => path

/-- The package is in an archive. -/
def isArchive : Location → Bool
  | .archive _ => true
  | .directory _ => false

/-- The URL of the archive's content or of the directory. -/
def url : Location → String
  | .archive path => (Url.ofArchive? path).getD ""
  | .directory path => (Url.ofDirectory? path).getD ""

end Location

/-- The names of the entries of the archive that a path leads to. -/
def archiveNames (fs : FileSystem) (path : String) : Except ArchiveFault (List String) :=
  match fs.readFile path with
  | .error _ => .error .unopened
  | .ok content =>
    match Archive.entryNames? content with
    | some names => .ok names
    | none => .error .invalid

/-- The file is an archive with an entry below the package. -/
def archiveHolds (fs : FileSystem) (package : Package) (path : String) : Bool :=
  match archiveNames fs path with
  | .ok names => names.any fun name => Text.startsWith package.entryStart name
  | .error _ => false

/-- The directory of exactly this name in the directory that a path leads to. -/
def childDirectory? (fs : FileSystem) (path name : String) : Option String :=
  match fs.listDirectory path with
  | .ok names =>
    if names.contains name && fs.isDirectory (Path.join path name) then some (Path.join path name)
    else none
  | .error _ => none

/-- The directory found by going down one segment after the other. -/
def descend (fs : FileSystem) : String → List String → Option String
  | path, [] => some path
  | path, segment :: segments =>
    match childDirectory? fs path segment with
    | some child => descend fs child segments
    | none => none

/-- The directory of a package below the directory that a path leads to. -/
def packageDirectory? (fs : FileSystem) (package : Package) (path : String) : Option String :=
  if fs.isDirectory path then descend fs path package.segments else none

/-- The location of a package in one entry of the search path, and what is to be reported of that
entry. -/
def locateIn (fs : FileSystem) (layout : Layout) (package : Package) (entry : String) :
    Option Location × List Diagnostic :=
  if layout.isArchive entry then
    match Path.absolute? fs.workingDirectory entry with
    | none => (none, [.note ("Jar URL " ++ entry ++ " is malformed")])
    | some path => (if archiveHolds fs package path then some (.archive path) else none, [])
  else
    match Path.absolute? fs.workingDirectory entry with
    | none => (none, [.note ("Directory URL " ++ entry ++ " is malformed")])
    | some path => ((packageDirectory? fs package path).map .directory, [])

/-- The location of a package in the first of the entries that holds it, and what is to be reported
of the entries up to there. -/
def locateAmong (fs : FileSystem) (layout : Layout) (package : Package) :
    List String → Option Location × List Diagnostic
  | [] => (none, [])
  | entry :: entries =>
    match locateIn fs layout package entry with
    | (some location, notes) => (some location, notes)
    | (none, notes) =>
      let (found, more) := locateAmong fs layout package entries
      (found, notes ++ more)

/-- The location of a package in the first entry of the search path that holds it. -/
def locate (fs : FileSystem) (layout : Layout) (package : Package) (path : SearchPath) :
    Option Location × List Diagnostic :=
  locateAmong fs layout package path.entries

end QualifierDiscovery
