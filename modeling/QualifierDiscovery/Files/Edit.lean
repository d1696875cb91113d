import QualifierDiscovery.Files.FileSystem

/-!
# Changes of a file system

Files, directories and links are made, replaced and removed by their paths. A change that is not
possible gives its cause and no file system.

- `writeFile` makes or replaces a file, `createLink` makes a link.
- `createDirectory` makes one directory, `createDirectories` its missing parents too.
- `remove` takes away whatever stands at a path, without following a link there.
-/

namespace QualifierDiscovery.FileSystem

/-- A node with nothing below it. -/
def isLeaf : Node → Bool
  | .directory [] => true
  | .directory (_ :: _) => false
  | .file _ => true
  | .link _ => true

theorem wellFormed_of_isLeaf {node : Node} (h : isLeaf node = true) : node.WellFormed := by
  cases node with
  | file => simp only [Node.WellFormed]
  | link => simp only [Node.WellFormed]
  | directory entries =>
    cases entries with
    | nil => simp only [Node.WellFormed, EntriesWellFormed]
    | cons _ _ => simp [isLeaf] at h

/-- The directories that cannot be listed once something else stands at a place, or nothing. -/
def closedOutside (fs : FileSystem) (place : Place) : List Place :=
  fs.closed.filter fun other => !place.isPrefixOf other

/-- The file system with a leaf at a place whose directory exists. A name that no entry can have
changes nothing. -/
def putLeaf (fs : FileSystem) (place : Place) (leaf : Node) : FileSystem :=
  if h : place.all isEntryName = true ∧ isLeaf leaf = true then
    { fs with
      root := fs.root.alter (fun _ => some leaf) place
      closed := fs.closedOutside place
      wellFormed := fs.wellFormed.alter h.1 fun _ node _ made => by
        simp only [Option.some.injEq] at made
        exact made ▸ wellFormed_of_isLeaf h.2 }
  else fs

/-- The file system without what stands at a place. -/
def erasePlace (fs : FileSystem) (place : Place) : FileSystem :=
  if h : place.all isEntryName = true then
    { fs with
      root := fs.root.alter (fun _ => none) place
      closed := fs.closedOutside place
      wellFormed := fs.wellFormed.alter h fun _ _ _ made => by simp at made }
  else fs

/-- Where a path's last name stands or could stand, without following a link of that name: the place
of its directory, and the name. A path that ends in dots or names nothing exists already. -/
def lastName (fs : FileSystem) (path : String) : Except FileError (Place × String) :=
  if path.toList.contains '\x00' then .error .pathWithNul
  else if path.isEmpty then .error .notFound
  else
    match ((Text.split '/' path).filter (· != "")).reverse with
    | [] => .error .alreadyExists
    | name :: before =>
      if name = "." ∨ name = ".." then .error .alreadyExists
      else
        match followLinks fs.root linkLimit (fs.startOf path) (before.reverse ++ ["."]) with
        | .ok (.present place (.directory _)) => .ok (place, name)
        | .ok (.present _ _) => .error .notDirectory
        | .ok (.vacant _ _) => .error .notFound
        | .error cause => .error cause

/-- A file with the given content, in place of the file that the path leads to or at a free name, if
that is one that an entry can have. -/
def writeFile (fs : FileSystem) (path : String) (content : ByteArray) :
    Except FileError FileSystem :=
  match fs.resolve path with
  | .ok (.present place (.file _)) => .ok (fs.putLeaf place (.file content))
  | .ok (.present _ _) => .error .isDirectory
  | .ok (.vacant parent name) =>
    if isEntryName name then .ok (fs.putLeaf (parent ++ [name]) (.file content))
    else .error .pathWithNul
  | .error cause =>
    if Text.endsWith "/" path && (fs.lastName path).isOk then .error .isDirectory
    else .error cause

/-- A new directory. -/
def createDirectory (fs : FileSystem) (path : String) : Except FileError FileSystem := do
  let (parent, name) ← fs.lastName path
  match fs.root.at? (parent ++ [name]) with
  | some _ => .error .alreadyExists
  | none => .ok (fs.putLeaf (parent ++ [name]) (.directory []))

/-- A new link to the given target. -/
def createLink (fs : FileSystem) (path target : String) : Except FileError FileSystem := do
  let (parent, name) ← fs.lastName path
  match fs.root.at? (parent ++ [name]) with
  | some _ => .error .alreadyExists
  | none => .ok (fs.putLeaf (parent ++ [name]) (.link target))

/-- The path without its last component, if it has one to lose. -/
def parentPath? (path : String) : Option String :=
  let pieces := (Text.split '/' path).filter (· != "")
  let start := if Path.isAbsolute path then "/" else ""
  if pieces.isEmpty then none else some (Path.joinAll start pieces.dropLast)

/-- Makes a directory where it is missing; what is one already is left as it is. -/
def ensureDirectory (fs : FileSystem) (path : String) : FileSystem × Option FileError :=
  match fs.createDirectory path with
  | .ok changed => (changed, none)
  | .error cause => if fs.isDirectory path then (fs, none) else (fs, some cause)

/-- Makes a directory and the parents it lacks, of which there are less than the given number. The
directories made before a failure stay. -/
def createDirectoriesWithin : Nat → FileSystem → String → FileSystem × Option FileError
  | 0, fs, _ => (fs, some .notFound)
  | count + 1, fs, path =>
    if path.isEmpty then (fs, none)
    else
      match fs.createDirectory path with
      | .ok changed => (changed, none)
      | .error .notFound =>
        match parentPath? path with
        | none => (fs, some .notFound)
        | some parent =>
          match createDirectoriesWithin count fs parent with
          | (changed, some cause) => (changed, some cause)
          | (changed, none) => changed.ensureDirectory path
      | .error cause => if fs.isDirectory path then (fs, none) else (fs, some cause)

/-- Makes a directory and the parents it lacks, and tells whether one could not be made. -/
def createDirectories (fs : FileSystem) (path : String) : FileSystem × Option FileError :=
  createDirectoriesWithin (path.length + 1) fs path

/-- The file system without what stands at a path. A link is removed and not followed. -/
def remove (fs : FileSystem) (path : String) : Except FileError FileSystem := do
  let (parent, name) ← fs.lastName path
  match fs.root.at? (parent ++ [name]) with
  | some _ => .ok (fs.erasePlace (parent ++ [name]))
  | none => .error .notFound

end QualifierDiscovery.FileSystem
