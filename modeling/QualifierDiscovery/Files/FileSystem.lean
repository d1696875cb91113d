import QualifierDiscovery.Files.Path
import QualifierDiscovery.Files.Tree
import QualifierDiscovery.Text.Utf8

/-!
# File systems

A file system is a well-formed tree, the place of the working directory in it and the directories
that refuse to be listed. A path is resolved step by step: names descend, double dots ascend, and a
symbolic link puts its target in front of the steps still to come. No more than forty links are
followed.

- `FileSystem.resolve` finds what a path leads to.
- `FileSystem.readFile`, `readText` and `listDirectory` read what is there.

Three things are idealized. The names of files and the targets of links are Unicode texts; a name
whose bytes are no UTF-8 does not occur. There is nothing but regular files, directories and links:
no pipe, socket or device. Of the permissions only that to list a directory can be lacking: every
file can be read, and every directory can be gone through, so a path is resolved whether or not the
directories on it can be listed.
-/

namespace QualifierDiscovery

/-- Why a path cannot be used. -/
inductive FileError
  | notFound
  | alreadyExists
  | notDirectory
  | isDirectory
  | tooManyLinks
  | pathWithNul
  | notUtf8
  | permissionDenied
  deriving DecidableEq

/-- The wording of a file error. -/
def FileError.message : FileError → String
  | .notFound => "No such file or directory (os error 2)"
  | .alreadyExists => "File exists (os error 17)"
  | .notDirectory => "Not a directory (os error 20)"
  | .isDirectory => "Is a directory (os error 21)"
  | .tooManyLinks => "Too many levels of symbolic links (os error 40)"
  | .pathWithNul => "file name contained an unexpected NUL byte"
  | .notUtf8 => "stream did not contain valid UTF-8"
  | .permissionDenied => "Permission denied (os error 13)"

/-- A tree of files, the place of the working directory in it, and the places of the directories
that can be gone through but not listed. -/
structure FileSystem where
  root : Node
  workingPlace : Place
  closed : List Place := []
  wellFormed : root.WellFormed
  workingNames : workingPlace.all isEntryName = true := by first | exact List.all_nil | decide

/-- What a path leads to: a node at its place, or a name that is free in a directory. -/
inductive Target
  | present (place : Place) (node : Node)
  | vacant (parent : Place) (name : String)

namespace FileSystem

/-- The file system that holds nothing but its root, where one works. -/
def empty : FileSystem where
  root := .directory []
  workingPlace := []
  wellFormed := by simp only [Node.WellFormed, EntriesWellFormed]

/-- The steps that a path or the target of a link consists of. A final slash asks for a directory,
as a final dot does. -/
def steps (path : String) : List String :=
  let pieces := Text.split '/' path
  let names := pieces.filter (· != "")
  if pieces.getLast? = some "" ∧ names ≠ [] then names ++ ["."] else names

/-- Takes the steps of a path from a place on. `jump` goes on from the target of a link. -/
def follow (root : Node) (jump : Place → List String → Except FileError Target) :
    Place → List String → Except FileError Target
  | here, [] =>
    match root.at? here with
    | some node => .ok (.present here node)
    | none => .error .notFound
  | here, step :: rest =>
    match root.at? here with
    | some (.directory entries) =>
      if step = "." then follow root jump here rest
      else if step = ".." then follow root jump here.dropLast rest
      else
        match Text.valueAt? step entries with
        | none => if rest.isEmpty then .ok (.vacant here step) else .error .notFound
        | some (.link target) =>
          jump (if Path.isAbsolute target then [] else here) (steps target ++ rest)
        | some _ => follow root jump (here ++ [step]) rest
    | some _ => .error .notDirectory
    | none => .error .notFound

/-- Takes the steps of a path, following no more than the given number of links. -/
def followLinks (root : Node) : Nat → Place → List String → Except FileError Target
  | 0 => follow root fun _ _ => .error .tooManyLinks
  | budget + 1 => follow root (followLinks root budget)

/-- How many links a path may lead through. -/
def linkLimit : Nat := 40

/-- Where the steps of a path begin. -/
def startOf (fs : FileSystem) (path : String) : Place :=
  if Path.isAbsolute path then [] else fs.workingPlace

/-- What a path leads to. -/
def resolve (fs : FileSystem) (path : String) : Except FileError Target :=
  if path.toList.contains '\x00' then .error .pathWithNul
  else if path.isEmpty then .error .notFound
  else followLinks fs.root linkLimit (fs.startOf path) (steps path)

/-- The working directory as an absolute path. -/
def workingDirectory (fs : FileSystem) : String :=
  if fs.workingPlace.isEmpty then "/" else Path.ofNames fs.workingPlace

/-- The node that a path leads to. -/
def nodeAt? (fs : FileSystem) (path : String) : Option Node :=
  match fs.resolve path with
  | .ok (.present _ node) => some node
  | _ => none

/-- The path leads to a directory. -/
def isDirectory (fs : FileSystem) (path : String) : Bool :=
  match fs.nodeAt? path with
  | some node => node.isDirectory
  | none => false

/-- The path leads to a regular file. -/
def isFile (fs : FileSystem) (path : String) : Bool :=
  match fs.nodeAt? path with
  | some node => node.isFile
  | none => false

/-- The path leads to something. -/
def contains (fs : FileSystem) (path : String) : Bool := (fs.nodeAt? path).isSome

/-- The directory at a place can be listed. -/
def canList (fs : FileSystem) (place : Place) : Bool := !fs.closed.contains place

/-- The content of the file that a path leads to. -/
def readFile (fs : FileSystem) (path : String) : Except FileError ByteArray :=
  match fs.resolve path with
  | .ok (.present _ (.file content)) => .ok content
  | .ok (.present _ _) => .error .isDirectory
  | .ok (.vacant _ _) => .error .notFound
  | .error cause => .error cause

/-- The content of a file as a text. -/
def readText (fs : FileSystem) (path : String) : Except FileError String := do
  let content ← fs.readFile path
  match Text.decode? content with
  | some text => .ok text
  | none => .error .notUtf8

/-- The names in the directory that a path leads to, in the order of the listing. -/
def listDirectory (fs : FileSystem) (path : String) : Except FileError (List String) :=
  match fs.resolve path with
  | .ok (.present place (.directory entries)) =>
    if fs.canList place then .ok (entries.map Prod.fst) else .error .permissionDenied
  | .ok (.present _ _) => .error .notDirectory
  | .ok (.vacant _ _) => .error .notFound
  | .error cause => .error cause

end FileSystem

end QualifierDiscovery
