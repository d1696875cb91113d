import QualifierDiscovery.Json.Decode
import QualifierDiscovery.Text.Pieces

/-!
# Artifact layouts

The file name suffixes by which archives, compiled classes and source files are told. A layout is
usable if each suffix begins with a dot and goes on after it.
-/

namespace QualifierDiscovery

/-- The suffixes of archives, compiled classes and source files. -/
structure Layout where
  archiveSuffixes : List String
  compiledSuffix : String
  sourceSuffix : String
  deriving DecidableEq

namespace Layout

/-- The suffix of a module file of an installed runtime. -/
def moduleSuffix : String := ".jmod"

/-- The layout of Java artifacts, which holds where nothing else is said. -/
def java : Layout := ⟨[".jar"], ".class", ".java"⟩

/-- The path names an archive. -/
def isArchive (layout : Layout) (path : String) : Bool :=
  layout.archiveSuffixes.any fun suffix => Text.endsWith suffix path

/-- What stands before a suffix in a file name, unless that is nothing. -/
def stem? (suffix fileName : String) : Option String :=
  (Text.stripEnd? suffix fileName).filter fun stem => !stem.isEmpty

/-- The simple class name of a compiled class's file name. -/
def compiledStem? (layout : Layout) (fileName : String) : Option String :=
  stem? layout.compiledSuffix fileName

/-- The simple class name of a source file's name. -/
def sourceStem? (layout : Layout) (fileName : String) : Option String :=
  stem? layout.sourceSuffix fileName

/-- The suffix begins with a dot and goes on after it. -/
def isSuffix (suffix : String) : Bool :=
  Text.startsWith "." suffix && 2 ≤ suffix.utf8ByteSize

/-- The first suffix of a layout that is none. -/
def badSuffix? (layout : Layout) : Option String :=
  (layout.archiveSuffixes ++ [layout.compiledSuffix, layout.sourceSuffix]).find? fun suffix =>
    !isSuffix suffix

/-- What has been read of a layout. -/
structure Draft where
  archiveSuffixes : Option (List String) := none
  compiledSuffix : Option String := none
  sourceSuffix : Option String := none

/-- The record that a layout is in JSON. What is missing is as in `java`. -/
def record : Json.Record Draft Layout where
  name := "ArtifactLayout"
  fields :=
    [.of "archive_suffixes" true Draft.archiveSuffixes
        (fun x d => { d with archiveSuffixes := some x }) (Json.decodeList Json.decodeString),
      .of "compiled_suffix" true Draft.compiledSuffix
        (fun x d => { d with compiledSuffix := some x }) Json.decodeString,
      .of "source_suffix" true Draft.sourceSuffix (fun x d => { d with sourceSuffix := some x })
        Json.decodeString]
  empty := {}
  finish := fun draft =>
    .ok ⟨draft.archiveSuffixes.getD java.archiveSuffixes,
      draft.compiledSuffix.getD java.compiledSuffix, draft.sourceSuffix.getD java.sourceSuffix⟩

/-- Reads a layout. -/
def decode : Json.Decoder Layout := Json.decodeRecord record

/-- A layout as a JSON value. -/
def toJson (layout : Layout) : Json.Value :=
  .object [("archive_suffixes", .ofStrings layout.archiveSuffixes),
    ("compiled_suffix", .string layout.compiledSuffix),
    ("source_suffix", .string layout.sourceSuffix)]

end Layout

end QualifierDiscovery
