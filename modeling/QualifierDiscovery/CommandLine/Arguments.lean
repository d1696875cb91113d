import QualifierDiscovery.Bootstrap

/-!
# Command line arguments

The command has three subcommands: to list the qualifiers bundled with a checker, to load those
below a directory, and to load one by its name. They share their options; the last two take one
argument more.

- `Command.parse` reads a command from the arguments, or says why they are refused or what is to be
  shown in its place.
-/

namespace QualifierDiscovery

/-- Why no command is run: something else is asked for, or the arguments are not right. -/
inductive UsageError
  | helpAsked
  | versionAsked
  | nothingGiven
  | unknownSubcommand
  | unknownArgument
  | badValue
  | repeatedOption
  | missingArgument
  | unwantedValue
  deriving DecidableEq

/-- The name of the kind of a usage error. -/
def UsageError.kind : UsageError → String
  | .helpAsked => "DisplayHelp"
  | .versionAsked => "DisplayVersion"
  | .nothingGiven => "DisplayHelpOnMissingArgumentOrSubcommand"
  | .unknownSubcommand => "InvalidSubcommand"
  | .unknownArgument => "UnknownArgument"
  | .badValue => "InvalidValue"
  | .repeatedOption => "ArgumentConflict"
  | .missingArgument => "MissingRequiredArgument"
  | .unwantedValue => "TooManyValues"

/-- The exit status of a usage error: success where the user asked for it. -/
def UsageError.exitStatus : UsageError → Nat
  | .helpAsked => 0
  | .versionAsked => 0
  | _ => 2

/-- The lines that tell how the command is used. -/
def usageLines : List String :=
  ["Discovers the type-qualifier annotations a checker ships or is given", "",
    "Usage: qualscan bundled [OPTIONS] --namespace <NAMESPACE> --manifest <FILE>",
    "       qualscan external-dir [OPTIONS] --namespace <NAMESPACE> --manifest <FILE> <DIR>",
    "       qualscan external-class [OPTIONS] --namespace <NAMESPACE> --manifest <FILE> <NAME>", "",
    "Options:",
    "  --namespace <NAMESPACE>  Checker namespace",
    "  --checker <CHECKER>      Checker simple name used in messages [default: Checker]",
    "  --manifest <FILE>        Descriptor manifest (repeatable, applied in order)",
    "  --path <PATH>            Extra search path entry (repeatable, searched after CLASSPATH)",
    "  --loader-url <URL>       URL the checker is loaded from (repeatable, searched last)",
    "  --config <FILE>          JSON loader configuration",
    "  -h, --help               Print help",
    "  -V, --version            Print version (without a subcommand)"]

/-- The lines shown where no command is run. -/
def UsageError.lines : UsageError → List String
  | .helpAsked => usageLines
  | .versionAsked => ["qualscan 0.1.0"]
  | .nothingGiven => usageLines
  | .unknownSubcommand => ["error: unrecognized subcommand"]
  | .unknownArgument => ["error: unexpected argument found"]
  | .badValue => ["error: a value is required or not valid"]
  | .repeatedOption => ["error: an argument cannot be used multiple times"]
  | .missingArgument => ["error: required arguments were not provided"]
  | .unwantedValue => ["error: unexpected value for an argument that takes none"]

/-- The options that all subcommands share. -/
structure SharedOptions where
  namespaceName : String
  checker : String
  manifests : List String
  paths : List String
  loaderUrls : List String
  configFile : Option String
  deriving DecidableEq

/-- What the loader is built from: the checker's type name joins its namespace and name. -/
def SharedOptions.loaderOptions (options : SharedOptions) : LoaderOptions where
  checker := options.namespaceName ++ "." ++ options.checker
  manifests := options.manifests
  classPath := options.paths
  loaderUrls := options.loaderUrls
  configFile := options.configFile

/-- What the command is to do. -/
inductive Task
  | bundled
  | externalDirectory (path : String)
  | externalClass (name : String)
  deriving DecidableEq

/-- A command: what it is to do, with which options. -/
structure Command where
  task : Task
  options : SharedOptions
  deriving DecidableEq

/-- A subcommand, by which the argument after the options is told. -/
inductive Subcommand
  | bundled
  | externalDirectory
  | externalClass
  deriving DecidableEq

/-- The subcommands by name. -/
def Subcommand.names : List (String × Subcommand) :=
  [("bundled", .bundled), ("external-dir", .externalDirectory),
    ("external-class", .externalClass)]

/-- Something on the command line that takes a value: an option, or the argument of a subcommand. -/
inductive Slot
  | namespaceName | checker | manifest | path | loaderUrl | config | argument
  deriving DecidableEq

/-- The options by name. -/
def Slot.options : List (String × Slot) :=
  [("namespace", .namespaceName), ("checker", .checker), ("manifest", .manifest), ("path", .path),
    ("loader-url", .loaderUrl), ("config", .config)]

/-- What has been read of a subcommand's arguments. -/
structure ArgumentDraft where
  namespaceName : Option String := none
  checker : Option String := none
  manifests : List String := []
  paths : List String := []
  loaderUrls : List String := []
  configFile : Option String := none
  argument : Option String := none
  /-- The slot read last, whose value is stored when the next one is read. It may still wait for
  its value. -/
  pending : Option (Slot × Option String) := none
  /-- The subcommand's argument has been given. -/
  argumentGiven : Bool := false

namespace ArgumentDraft

/-- A value that may be given only once. -/
def once (old : Option String) (value : String) : Except UsageError (Option String) :=
  if old.isSome then .error .repeatedOption else .ok (some value)

/-- A value that names a file and so is not empty. -/
def asPath (value : String) : Except UsageError String :=
  if value.isEmpty then .error .badValue else .ok value

/-- The draft with a value in its slot. -/
def store (subcommand : Subcommand) (draft : ArgumentDraft) (slot : Slot) (value : String) :
    Except UsageError ArgumentDraft :=
  match slot with
  | .namespaceName => do .ok { draft with namespaceName := ← once draft.namespaceName value }
  | .checker => do .ok { draft with checker := ← once draft.checker value }
  | .manifest => do .ok { draft with manifests := draft.manifests ++ [← asPath value] }
  | .path => .ok { draft with paths := draft.paths ++ [value] }
  | .loaderUrl => .ok { draft with loaderUrls := draft.loaderUrls ++ [value] }
  | .config => do
    let stored ← once draft.configFile value
    let _ ← asPath value
    .ok { draft with configFile := stored }
  | .argument => do
    if subcommand = .externalDirectory then
      let _ ← asPath value
      .ok { draft with argument := some value }
    else .ok { draft with argument := some value }

/-- The draft with its pending slot stored. A slot that waits for its value does so in vain. -/
def settle (subcommand : Subcommand) (draft : ArgumentDraft) : Except UsageError ArgumentDraft :=
  match draft.pending with
  | none => .ok draft
  | some (_, none) => .error .badValue
  | some (slot, some value) => store subcommand { draft with pending := none } slot value

/-- Reads an argument that is neither an option nor an option's value. -/
def readArgument (subcommand : Subcommand) (draft : ArgumentDraft) (word : String) :
    Except UsageError ArgumentDraft :=
  if subcommand = .bundled ∨ draft.argumentGiven then .error .unknownArgument
  else do
    let draft ← draft.settle subcommand
    .ok { draft with pending := some (.argument, some word), argumentGiven := true }

/-- The name of a long option and the value attached to it after an equals sign. -/
def splitOption (word : String) : String × Option String :=
  let chars := word.toList.drop 2
  let name := String.ofList (chars.takeWhile (· != '='))
  match chars.dropWhile (· != '=') with
  | [] => (name, none)
  | _ :: value => (name, some (String.ofList value))

/-- Reads a long option. -/
def readLong (subcommand : Subcommand) (draft : ArgumentDraft) (word : String) :
    Except UsageError ArgumentDraft :=
  let (name, attached) := splitOption word
  if name = "help" then
    if attached.isSome then .error .unwantedValue
    else do
      let _ ← draft.settle subcommand
      .error .helpAsked
  else
    match Text.valueAt? name Slot.options with
    | none => .error .unknownArgument
    | some slot => do
      let draft ← draft.settle subcommand
      match attached with
      | some value => draft.store subcommand slot value
      | none => .ok { draft with pending := some (slot, none) }

/-- Reads a cluster of short options, of which only the one for help is known. -/
def readShort (subcommand : Subcommand) (draft : ArgumentDraft) (word : String) :
    Except UsageError ArgumentDraft :=
  if Text.startsWith "-h" word then do
    let _ ← draft.settle subcommand
    .error .helpAsked
  else .error .unknownArgument

/-- Reads the arguments of a subcommand. After two dashes by themselves there are no more
options. -/
def read (subcommand : Subcommand) : Bool → ArgumentDraft → List String →
    Except UsageError ArgumentDraft
  | _, draft, [] => draft.settle subcommand
  | true, draft, word :: words => do
    let draft ← draft.readArgument subcommand word
    read subcommand true draft words
  | false, draft, word :: words =>
    if word = "--" then read subcommand true draft words
    else if Text.startsWith "--" word then do
      let draft ← draft.readLong subcommand word
      read subcommand false draft words
    else if Text.startsWith "-" word && word != "-" then do
      let draft ← draft.readShort subcommand word
      read subcommand false draft words
    else
      match draft.pending with
      | some (slot, none) =>
        read subcommand false { draft with pending := some (slot, some word) } words
      | _ => do
        let draft ← draft.readArgument subcommand word
        read subcommand false draft words

/-- The value of an argument that has to be given. -/
def given {α : Type} : Option α → Except UsageError α
  | some x => .ok x
  | none => .error .missingArgument

/-- The command that a draft makes. -/
def finish (subcommand : Subcommand) (draft : ArgumentDraft) : Except UsageError Command := do
  let namespaceName ← given draft.namespaceName
  if draft.manifests.isEmpty then .error .missingArgument
  else
    let options : SharedOptions :=
      { namespaceName, checker := draft.checker.getD "Checker", manifests := draft.manifests,
        paths := draft.paths, loaderUrls := draft.loaderUrls, configFile := draft.configFile }
    match subcommand with
    | .bundled => .ok ⟨.bundled, options⟩
    | .externalDirectory => do .ok ⟨.externalDirectory (← given draft.argument), options⟩
    | .externalClass => do .ok ⟨.externalClass (← given draft.argument), options⟩

end ArgumentDraft

namespace Command

/-- The answer to `help` with the names of subcommands after it. -/
def helpFor (words : List String) : UsageError :=
  match words with
  | [] => .helpAsked
  | [name] =>
    if name = "help" ∨ (Text.valueAt? name Subcommand.names).isSome then .helpAsked
    else .unknownSubcommand
  | _ => .unknownSubcommand

/-- The refusal of arguments after two dashes where a subcommand is wanted. -/
def refusalAfterDashes : List String → UsageError
  | [] => .nothingGiven
  | name :: _ =>
    if name = "help" ∨ (Text.valueAt? name Subcommand.names).isSome then .unknownArgument
    else .unknownSubcommand

/-- The answer to a long option where a subcommand is wanted. -/
def answerToLong (word : String) : UsageError :=
  let (name, attached) := ArgumentDraft.splitOption word
  if name = "help" then if attached.isSome then .unwantedValue else .helpAsked
  else if name = "version" then if attached.isSome then .unwantedValue else .versionAsked
  else .unknownArgument

/-- The answer to short options where a subcommand is wanted. -/
def answerToShort (word : String) : UsageError :=
  if Text.startsWith "-h" word then .helpAsked
  else if Text.startsWith "-V" word then .versionAsked
  else .unknownArgument

/-- Reads a command from the arguments after the program's name. -/
def parse : List String → Except UsageError Command
  | [] => .error .nothingGiven
  | word :: words =>
    if word = "--" then .error (refusalAfterDashes words)
    else if Text.startsWith "--" word then .error (answerToLong word)
    else if Text.startsWith "-" word && word != "-" then .error (answerToShort word)
    else if word = "help" then .error (helpFor words)
    else
      match Text.valueAt? word Subcommand.names with
      | none => .error .unknownSubcommand
      | some subcommand => do
        let draft ← ArgumentDraft.read subcommand false {} words
        draft.finish subcommand

end Command

end QualifierDiscovery
