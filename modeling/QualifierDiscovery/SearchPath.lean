import QualifierDiscovery.Diagnostic
import QualifierDiscovery.Layout
import QualifierDiscovery.Url.FileUrl

/-!
# Search paths

A search path is a list of archives and directories, none of them twice. It is collected from the
lists of a host: boot entries, then extension directories, then the class path, then the files that
loader URLs name.

- `SearchPath.push` appends an entry unless it is there already.
- `Collector.collect` collects the search path of a host, with a note for each URL that names no file.
-/

namespace QualifierDiscovery

/-- Entries in the order in which they are searched, none of them twice. -/
structure SearchPath where
  entries : List String
  distinct : entries.Nodup

namespace SearchPath

/-- The search path without entries. -/
def empty : SearchPath := ⟨[], .nil⟩

/-- The search path with an entry at its end, unless it is there already. -/
def push (path : SearchPath) (entry : String) : SearchPath :=
  if h : entry ∈ path.entries then path
  else
    ⟨path.entries ++ [entry], by
      rw [List.nodup_append]
      exact ⟨path.distinct, by simp, fun a ha b hb => by
        rw [List.mem_singleton] at hb
        exact fun same => h (hb ▸ same ▸ ha)⟩⟩

/-- The search path with each of the entries pushed. -/
def pushAll (path : SearchPath) (entries : List String) : SearchPath := entries.foldl push path

/-- The search path of a list of entries. -/
def ofList (entries : List String) : SearchPath := empty.pushAll entries

/-- The search path with the entries of another one pushed. -/
def extend (path other : SearchPath) : SearchPath := path.pushAll other.entries

/-- The entry is on the search path. -/
def contains (path : SearchPath) (entry : String) : Bool := path.entries.contains entry

end SearchPath

/-- The entries of a path list: its pieces between colons that are not empty. -/
def splitPathList (list : String) : List String :=
  (Text.split ':' list).filter (· != "")

/-- The path lists and loader URLs of a host. Each path list may hold several paths. -/
structure Sources where
  bootPath : List String
  extensionDirectories : List String
  classPath : List String
  loaderUrls : List String
  deriving DecidableEq

namespace Sources

/-- A host that names nothing. -/
def empty : Sources := ⟨[], [], [], []⟩

/-- The host names nothing at all. -/
def isEmpty (sources : Sources) : Bool :=
  sources.bootPath.isEmpty && sources.extensionDirectories.isEmpty && sources.classPath.isEmpty
    && sources.loaderUrls.isEmpty

/-- What has been read of the sources. -/
structure Draft where
  bootPath : Option (List String) := none
  extensionDirectories : Option (List String) := none
  classPath : Option (List String) := none
  loaderUrls : Option (List String) := none

/-- The record that the sources are in JSON. What is missing is empty. -/
def record : Json.Record Draft Sources where
  name := "SearchPathConfig"
  fields :=
    [.of "boot_path" true Draft.bootPath (fun x d => { d with bootPath := some x })
        (Json.decodeList Json.decodeString),
      .of "extension_dirs" true Draft.extensionDirectories
        (fun x d => { d with extensionDirectories := some x })
        (Json.decodeList Json.decodeString),
      .of "class_path" true Draft.classPath (fun x d => { d with classPath := some x })
        (Json.decodeList Json.decodeString),
      .of "loader_urls" true Draft.loaderUrls (fun x d => { d with loaderUrls := some x })
        (Json.decodeList Json.decodeString)]
  empty := {}
  finish := fun draft =>
    .ok ⟨draft.bootPath.getD [], draft.extensionDirectories.getD [], draft.classPath.getD [],
      draft.loaderUrls.getD []⟩

/-- Reads the sources. -/
def decode : Json.Decoder Sources := Json.decodeRecord record

/-- The entries of all path lists, in the order in which they are searched. -/
def listed (sources : Sources) : List String :=
  (sources.bootPath ++ sources.extensionDirectories ++ sources.classPath).flatMap splitPathList

end Sources

/-- What a class loader tells of the URLs it loads from. -/
inductive UrlSource
  /-- The loader does not tell its URLs. -/
  | silent
  /-- The loader loads from these URLs. -/
  | told (urls : List String)
  deriving DecidableEq

/-- The URLs that a source tells, if any source is set and tells them. -/
def UrlSource.urls? : Option UrlSource → Option (List String)
  | some (.told urls) => some urls
  | some .silent => none
  | none => none

/-- What a search path is collected from: the host's lists, the loader that loaded the checker, and
the system's loader, which is asked only if the other does not tell its URLs. -/
structure Collector where
  sources : Sources
  checkerUrls : Option UrlSource
  systemUrls : Option UrlSource
  deriving DecidableEq

namespace Collector

/-- The collector of a host. Loader URLs that the host names are those of the checker's loader. -/
def ofSources (sources : Sources) : Collector where
  sources := sources
  checkerUrls := if sources.loaderUrls.isEmpty then none else some (.told sources.loaderUrls)
  systemUrls := none

/-- The collector of a host whose class loaders can be asked for their URLs. A loader of the checker's
that is given takes the place of the URLs that the host names. -/
def ofLoaders (sources : Sources) (checker system : Option UrlSource) : Collector where
  sources := sources
  checkerUrls := checker.or (ofSources sources).checkerUrls
  systemUrls := system

/-- The URLs that are searched. -/
def loaderUrls (collector : Collector) : List String :=
  match UrlSource.urls? collector.checkerUrls with
  | some urls => urls
  | none => (UrlSource.urls? collector.systemUrls).getD []

/-- The note on a URL that names no file. -/
def malformedUrl (url : String) : Diagnostic :=
  .note ("Loader URL " ++ url ++ " is malformed")

/-- The search path: the entries of the host's lists and then the files that the URLs name. Each URL
that names none gives a note. -/
def collect (collector : Collector) : SearchPath × List Diagnostic :=
  let named := collector.loaderUrls.filterMap Url.toPath?
  let unnamed := collector.loaderUrls.filter fun url => (Url.toPath? url).isNone
  (SearchPath.ofList (collector.sources.listed ++ named), unnamed.map malformedUrl)

end Collector

end QualifierDiscovery
