import QualifierDiscovery.Files.FileSystem

/-!
# Walking a directory tree

The regular files below a directory, at any depth, in the order of their paths. Links are followed:
a link to a file counts as a file, a link to a directory is entered unless that directory is one of
those that the path has already gone through. Links that lead nowhere are skipped, and so are the
directories that cannot be listed.

- `FileSystem.filesBelow` lists the files, each by the names that lead to it.
-/

namespace QualifierDiscovery.FileSystem

mutual

/-- The files below a directory node. `start` is the path of the walk, `opened` holds the places of
the directories gone through, `trail` the names that lead to the node and `here` its own place;
`enter` goes on in the directory that a link leads to. -/
def filesIn (fs : FileSystem) (start : String)
    (enter : List Place → List String → Place → List (List String))
    (opened : List Place) (trail : List String) (here : Place) : Node → List (List String)
  | .file _ => []
  | .link _ => []
  | .directory entries =>
    if fs.canList here then
      (Text.sortedBy Prod.fst (filesAt fs start enter opened trail here entries)).flatMap Prod.snd
    else []

/-- For each entry of a directory, its name and the files at it. -/
def filesAt (fs : FileSystem) (start : String)
    (enter : List Place → List String → Place → List (List String))
    (opened : List Place) (trail : List String) (here : Place) :
    List (String × Node) → List (String × List (List String))
  | [] => []
  | (name, node) :: rest =>
    let files := match node with
      | .file _ => [trail ++ [name]]
      | .directory _ =>
        filesIn fs start enter ((here ++ [name]) :: opened) (trail ++ [name]) (here ++ [name]) node
      | .link _ =>
        match fs.resolve (Path.joinAll start (trail ++ [name])) with
        | .ok (.present _ (.file _)) => [trail ++ [name]]
        | .ok (.present place (.directory _)) =>
          if opened.contains place then [] else enter (place :: opened) (trail ++ [name]) place
        | _ => []
    (name, files) :: filesAt fs start enter opened trail here rest

end

/-- The files below the directory at a place, with no more than the given number of directories
entered through links on any path. -/
def filesWithin (fs : FileSystem) (start : String) :
    Nat → List Place → List String → Place → List (List String)
  | 0, _, _, _ => []
  | budget + 1, opened, trail, here =>
    match fs.root.at? here with
    | some node => filesIn fs start (filesWithin fs start budget) opened trail here node
    | none => []

/-- The regular files below the directory that a path leads to, each given by the names from that
directory on, in the order of those names. Each directory entered through a link on a path is
another one, so their number is a bound that is never reached. -/
def filesBelow (fs : FileSystem) (start : String) : List (List String) :=
  match fs.resolve start with
  | .ok (.present place (.directory _)) =>
    fs.filesWithin start (fs.root.directoryCount + 1) [place] [] place
  | _ => []

end QualifierDiscovery.FileSystem
