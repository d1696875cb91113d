import QualifierDiscovery.CommandLine.Arguments
import QualifierDiscovery.Files.Edit

/-!
# Running a command

A command makes the directory for its log files, builds the checker's loader in the environment and
prints the names of the qualifiers that it loads, one on each line. If anything fails it prints no
name but the failure.

- `Command.run` runs a command that has been read.
- `runArguments` reads a command and runs it.
-/

namespace QualifierDiscovery

/-- What a run leaves behind: its exit status and the lines it printed. -/
structure Outcome where
  exitStatus : Nat
  output : List String
  errors : List String
  deriving DecidableEq

/-- The directory of log files: below the home directory, or the working directory where none is
set. -/
def logDirectory (env : Variables) : String :=
  Path.join (env.home.getD ".") ".qualscan/logs"

/-- The file system with the directory for log files, and the complaint if it cannot be made. -/
def prepareLogs (env : Variables) (fs : FileSystem) : FileSystem × List String :=
  match fs.createDirectories (logDirectory env) with
  | (changed, none) => (changed, [])
  | (changed, some cause) =>
    (changed, ["qualscan: cannot create log directory " ++ logDirectory env ++ ": "
      ++ cause.message])

namespace Command

/-- The names of the qualifiers that a command loads, or the failure. -/
def load (command : Command) (env : Variables) (fs : FileSystem) :
    Except LoadError (List String) := do
  let loader ← (command.options.loaderOptions.build fs (env.sources fs)).1
  match command.task with
  | .bundled => .ok loader.loaded.names
  | .externalDirectory path => do
    let found ← (loader.loadDirectory fs path).1
    .ok found.names
  | .externalClass name => do
    let descriptor ← (loader.loadClass name).1
    .ok [descriptor.name]

/-- Runs a command. -/
def run (command : Command) (env : Variables) (fs : FileSystem) : Outcome :=
  let (fs, complaints) := prepareLogs env fs
  match command.load env fs with
  | .ok names => ⟨0, names, complaints⟩
  | .error failure => ⟨1, [], complaints ++ ["Error: " ++ failure.message]⟩

end Command

/-- Reads a command from the arguments and runs it, or tells why there is none to run. -/
def runArguments (arguments : List String) (env : Variables) (fs : FileSystem) :
    Except UsageError Outcome := do
  let command ← Command.parse arguments
  .ok (command.run env fs)

end QualifierDiscovery
