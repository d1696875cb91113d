import QualifierDiscovery.Locate

/-!
# Bundled candidates

The simple names of the compiled classes that lie directly in a qualifier package. What lies in a
package below it does not count.

- `bundledNames` lists the names in increasing order, each one once.
-/

namespace QualifierDiscovery

/-- The simple class name of an archive's entry that lies directly in the package. -/
def bundledName? (layout : Layout) (package : Package) (entry : String) : Option String :=
  match Text.stripStart? package.entryStart entry with
  | some rest => if rest.toList.contains '/' then none else layout.compiledStem? rest
  | none => none

/-- The candidates in an archive. The archive has been read before, so failing now is an error. -/
def namesInArchive (fs : FileSystem) (layout : Layout) (package : Package) (path : String) :
    Except LoadError (List String) :=
  match archiveNames fs path with
  | .ok names => .ok (Text.sortedSet (names.filterMap (bundledName? layout package)))
  | .error fault => .error (.archive path fault)

/-- The candidates in a directory: the regular files with a compiled class's name, links
followed. -/
def namesInDirectory (fs : FileSystem) (layout : Layout) (path : String) :
    Except LoadError (List String) :=
  match fs.listDirectory path with
  | .ok names =>
    let files := names.filter fun name => fs.isFile (Path.join path name)
    .ok (Text.sortedSet (files.filterMap layout.compiledStem?))
  | .error cause => .error (.file cause)

/-- The candidates at a location, in increasing order; none where the package was not found. -/
def bundledNames (fs : FileSystem) (layout : Layout) (package : Package) :
    Option Location → Except LoadError (List String)
  | none => .ok []
  | some (.archive path) => namesInArchive fs layout package path
  | some (.directory path) => namesInDirectory fs layout path

end QualifierDiscovery
