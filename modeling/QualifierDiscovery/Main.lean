import QualifierDiscovery.CommandLine.Run

/-!
# The command

Reads from the disk what the arguments and the environment variables name, runs the command on it
and prints the outcome.

- `Disk.record` adds to a file system what the disk holds at a path.
- `Disk.forCommand` is all that a command may look at.
-/

namespace QualifierDiscovery.Disk

/-- How much of what a path leads to is recorded. -/
inductive Extent
  /-- That it is there. -/
  | presence
  /-- Also all names below a directory. -/
  | names
  /-- Also the content of a file, though not of files below a directory. -/
  | content
  deriving DecidableEq

/-- What is known of the disk: its files as far as they are recorded, and the directories all names
below which are. -/
structure Picture where
  files : FileSystem
  walked : List String

mutual

/-- Records an entry of a directory. What cannot be read counts as missing, and so does a link that
leads nowhere; another link is recorded with the path that it leads to in the end. The names below
a directory are recorded once, so that links which lead in a circle are no trap. A directory that
cannot be listed is recorded as one. -/
partial def recordEntry (extent : Extent) (directory name : String) (picture : Picture) :
    IO Picture := do
  let path := Path.join directory name
  let entry := IO.FS.DirEntry.path ⟨directory, name⟩
  let put (files : Except FileError FileSystem) : Picture :=
    { picture with files := files.toOption.getD picture.files }
  try
    match (← entry.symlinkMetadata).type with
    | .symlink =>
      let target := (← IO.FS.realPath entry).toString
      record extent target (put (picture.files.createLink path target))
    | .dir =>
      let files := (picture.files.createDirectories path).1
      let place := (← IO.FS.realPath entry).toString
      if extent = .presence || picture.walked.contains place then return { picture with files }
      else
        match ← entry.readDir.toBaseIO with
        | .ok entries =>
          entries.foldlM (fun picture below => recordEntry .names path below.fileName picture)
            ⟨files, place :: picture.walked⟩
        | .error _ =>
          let closed := FileSystem.steps place :: files.closed
          return ⟨{ files with closed }, place :: picture.walked⟩
    | .file =>
      if extent = .content then
        return put (picture.files.writeFile path (← IO.FS.readBinFile entry))
      else if picture.files.contains path then return picture
      else return put (picture.files.writeFile path ByteArray.empty)
    | .other => return picture
  catch _ => return picture

/-- Records what an absolute path leads to, and the directories on the way. -/
partial def record (extent : Extent) (path : String) (picture : Picture) : IO Picture := do
  let names := FileSystem.steps path
  let mut picture := picture
  let mut directory := "/"
  for name in names.dropLast do
    picture ← recordEntry .presence directory name picture
    directory := Path.join directory name
  recordEntry extent directory (names.getLast?.getD ".") picture

end

/-- Records what each of several paths leads to. -/
def recordAll (extent : Extent) (paths : List String) (picture : Picture) : IO Picture :=
  paths.foldlM (fun picture path =>
    record extent (Path.join picture.files.workingDirectory path) picture) picture

/-- The working directory and nothing beside it. -/
def workingDirectory : IO Picture := do
  let path := (← IO.FS.realPath ".").toString
  let picture ← record .presence path ⟨FileSystem.empty, []⟩
  let workingPlace := FileSystem.steps path
  if workingNames : workingPlace.all isEntryName = true then
    return { picture with files := { picture.files with workingPlace, workingNames } }
  else return picture

/-- The files and directories that a command may look at: what its arguments name, the development
kits of the environment and the entries of the search path. -/
def forCommand (command : Command) (env : Variables) : IO FileSystem := do
  let options := command.options.loaderOptions
  let search := env.jdkSearch
  let named := options.manifests ++ options.configFile.toList
  let directories := logDirectory env :: search.javaHome.toList ++ search.roots
    ++ match command.task with
      | .externalDirectory path => [path]
      | _ => []
  let picture ← recordAll .content named (← workingDirectory)
  let picture ← recordAll .names directories picture
  let kits := search.places picture.files
  let picture ← recordAll .content (kits.map fun kit => Path.join kit "release") picture
  let (path, _) := options.collect (env.sources picture.files)
  let picture ← recordAll .content path.entries picture
  return picture.files

/-- The environment variables that matter. -/
def readVariables : IO Variables := do
  return {
    home := ← IO.getEnv "HOME"
    javaHome := ← IO.getEnv "JAVA_HOME"
    extensionDirectories := ← IO.getEnv "QUALSCAN_EXT_DIRS"
    classPath := ← IO.getEnv "CLASSPATH" }

/-- Makes the directory for log files; the outcome tells whether that is possible. -/
def makeLogDirectory (env : Variables) : IO Unit := do
  try IO.FS.createDirAll (logDirectory env)
  catch _ => pure ()

end QualifierDiscovery.Disk

open QualifierDiscovery in
/-- Runs the command that the arguments give and returns its exit status. -/
def main (arguments : List String) : IO UInt32 := do
  match Command.parse arguments with
  | .error usage =>
    for line in usage.lines do
      if usage.exitStatus = 0 then IO.println line else IO.eprintln line
    return usage.exitStatus.toUInt32
  | .ok command =>
    let env ← Disk.readVariables
    let fs ← Disk.forCommand command env
    Disk.makeLogDirectory env
    let outcome := command.run env fs
    for line in outcome.errors do IO.eprintln line
    for line in outcome.output do IO.println line
    return outcome.exitStatus.toUInt32
