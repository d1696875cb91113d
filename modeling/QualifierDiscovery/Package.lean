import QualifierDiscovery.Json.Value
import QualifierDiscovery.Name

/-!
# Qualifier packages

The package that holds a checker's own qualifiers. Its dotted name is derived from the checker's
namespace and a suffix; archives name it with slashes, and directories by one segment for each
level.

- `ofDotted?` makes a package of any dotted name and of no other text.
- `forNamespace?` derives the package of a namespace.
-/

namespace QualifierDiscovery

/-- A package, given by its dotted name. -/
structure Package where
  dotted : String
  qualified : Name.isQualified dotted = true
  deriving DecidableEq

namespace Package

/-- The package of a dotted name. -/
def ofDotted? (dotted : String) : Option Package :=
  if h : Name.isQualified dotted = true then some ⟨dotted, h⟩ else none

/-- The dotted name that a namespace and a suffix make; dots in front of the suffix do not count. -/
def nameFor (namespaceName suffix : String) : String :=
  let suffix := Text.dropLeading '.' suffix
  if namespaceName.isEmpty then suffix else namespaceName ++ "." ++ suffix

/-- The package of a namespace and a suffix. -/
def forNamespace? (namespaceName suffix : String) : Option Package :=
  ofDotted? (nameFor namespaceName suffix)

/-- The name with slashes in place of dots. -/
def slashed (package : Package) : String := Text.replaceChar '.' '/' package.dotted

/-- The identifiers that the name is made of. -/
def segments (package : Package) : List String := Name.segments package.dotted

/-- What the archive entries of the package's members begin with. -/
def entryStart (package : Package) : String := package.slashed ++ "/"

/-- The name of a class that lies directly in the package. -/
def qualify (package : Package) (simpleName : String) : String :=
  package.dotted ++ "." ++ simpleName

/-- The package as a JSON value. -/
def toJson (package : Package) : Json.Value :=
  .object [("dotted", .string package.dotted), ("slashed", .string package.slashed),
    ("segments", .ofStrings package.segments)]

end Package

end QualifierDiscovery
