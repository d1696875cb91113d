import QualifierDiscovery.Jdk
import QualifierDiscovery.SearchPath

/-!
# The environment of a Java virtual machine

What a virtual machine would search: the boot path of an installed development kit, the extension
directories and the class path that environment variables name, and the URLs of the loader that
hosts the checker.

- `Variables.sources` reads the environment's variables.
-/

namespace QualifierDiscovery

/-- The environment variables that matter, each if it is set. -/
structure Variables where
  home : Option String
  javaHome : Option String
  extensionDirectories : Option String
  classPath : Option String
  deriving DecidableEq

namespace Variables

/-- A path list of one variable; an empty variable counts as unset. -/
def listOf : Option String → List String
  | some list => if list.isEmpty then [] else [list]
  | none => []

/-- Where a development kit is looked for: the usual place of installations, then the one below the
home directory. -/
def jdkSearch (env : Variables) : JdkSearch where
  javaHome := env.javaHome
  roots := "/usr/lib/jvm/" :: match env.home with
    | some home => if home.isEmpty then [] else [Path.join home ".sdkman/candidates/java/"]
    | none => []

/-- The path lists of the environment. What is missing is empty. -/
def sources (env : Variables) (fs : FileSystem) : Sources where
  bootPath := match env.jdkSearch.discover fs with
    | some jdk => jdk.bootPath
    | none => []
  extensionDirectories := listOf env.extensionDirectories
  classPath := listOf env.classPath
  loaderUrls := []

end Variables

namespace Sources

/-- The sources with more of the class path after their own. -/
def withClassPath (sources : Sources) (lists : List String) : Sources :=
  { sources with classPath := sources.classPath ++ lists }

/-- The sources with more loader URLs after their own. -/
def withLoaderUrls (sources : Sources) (urls : List String) : Sources :=
  { sources with loaderUrls := sources.loaderUrls ++ urls }

end Sources

end QualifierDiscovery
