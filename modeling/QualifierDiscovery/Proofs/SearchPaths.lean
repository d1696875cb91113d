import QualifierDiscovery.Proofs.FirstOccurrences
import QualifierDiscovery.Proofs.Url.FilePaths
import QualifierDiscovery.SearchPath

/-!
# `Proofs.SearchPaths` — what a search path is collected from

A host gives lists of paths, each of which may hold several, and URLs. How the paths are distributed over the
lists does not matter: what counts is the text of all lists with colons between them (`listed_eq`). The
URLs are those of the one loader that is to be asked (`EffectiveUrls`), and each of them gives an entry or
a note.

## Contents
- **Entries.** `entries_pushAll` — pushing keeps the first occurrence of each entry.
- **Path lists.** `splitPathList_join`, and `Regrouped` lists, which are joined to the same text.
- **URLs.** `exists_effectiveUrls` and `loaderUrls_eq` — whose URLs are searched.
- **Collecting.** `collect_exact` — the entries and the notes of a search path.
-/

namespace QualifierDiscovery

/-! ## Entries -/

namespace SearchPath

variable {path : SearchPath} {entry : String}

theorem push_of_mem (h : entry ∈ path.entries) : path.push entry = path := dif_pos h

theorem entries_push_of_notMem (h : entry ∉ path.entries) :
    (path.push entry).entries = path.entries ++ [entry] := by
  unfold push
  rw [dif_neg h]

/-- **Pushing keeps the first occurrence of each entry.** By induction on the entries from their end: the
    last one is new or has no effect. -/
theorem entries_pushAll (path : SearchPath) (entries : List String) :
    (path.pushAll entries).entries = (path.entries ++ entries).eraseDups := by
  induction entries using List.reverseRecOn with
  | nil =>
    rw [List.append_nil, eraseDups_of_nodup path.distinct]
    rfl
  | append_singleton entries last ih =>
    have hlast : path.pushAll (entries ++ [last]) = (path.pushAll entries).push last :=
      List.foldl_concat _ _ _ _
    have hmem : last ∈ (path.pushAll entries).entries ↔ last ∈ path.entries ++ entries := by
      rw [ih, List.mem_eraseDups]
    rw [hlast, ← List.append_assoc]
    by_cases hseen : last ∈ path.entries ++ entries
    · rw [push_of_mem (hmem.mpr hseen), ih, eraseDups_concat_of_mem hseen]
    · rw [entries_push_of_notMem fun h => hseen (hmem.mp h), ih, eraseDups_concat_of_notMem hseen]

theorem entries_ofList (entries : List String) : (ofList entries).entries = entries.eraseDups :=
  entries_pushAll empty entries

end SearchPath

/-! ## Path lists -/

theorem splitPathList_append (before after : String) :
    splitPathList (before ++ ":" ++ after) = splitPathList before ++ splitPathList after := by
  unfold splitPathList
  rw [show (":" : String) = String.singleton ':' from rfl, Text.split_append_separator,
    List.filter_append]

/-- The paths of several lists are those of the lists joined by colons. -/
theorem splitPathList_join (lists : List String) :
    splitPathList (Text.join ':' lists) = lists.flatMap splitPathList := by
  induction lists with
  | nil => rfl
  | cons list rest ih =>
    by_cases hrest : rest = []
    · subst hrest
      rw [Text.join_singleton, List.flatMap_singleton]
    · rw [Text.join_cons hrest, show String.singleton ':' = ":" from rfl, splitPathList_append, ih,
        List.flatMap_cons]

theorem colon_notMem_of_mem_splitPathList {list entry : String} (h : entry ∈ splitPathList list) :
    ':' ∉ entry.toList :=
  Text.notMem_of_mem_split (List.mem_filter.mp h).1

/-- A path comes out of a list as it went in exactly if it has no colon. -/
theorem splitPathList_eq_singleton_iff {path : String} (hempty : path ≠ "") :
    splitPathList path = [path] ↔ ':' ∉ path.toList := by
  constructor
  · intro hsame
    have hpath : path ∈ splitPathList path := hsame ▸ List.mem_cons_self
    exact colon_notMem_of_mem_splitPathList hpath
  · intro hcolon
    unfold splitPathList
    rw [Text.split_eq_singleton hcolon, List.filter_cons_of_pos (by simpa using hempty), List.filter_nil]

/-- A list with more in it than colons has a path. -/
theorem splitPathList_ne_nil {list : String} {c : Char} (hmem : c ∈ list.toList) (hcolon : c ≠ ':') :
    splitPathList list ≠ [] := by
  obtain ⟨piece, hpiece, hc⟩ := Text.exists_mem_split_of_mem hmem hcolon
  apply List.ne_nil_of_mem
  refine List.mem_filter.mpr ⟨hpiece, ?_⟩
  simpa using List.ne_nil_of_mem hc

theorem ne_empty_of_mem_splitPathList {list entry : String} (h : entry ∈ splitPathList list) :
    entry ≠ "" := by
  have hkept := (List.mem_filter.mp h).2
  simpa using hkept

/-- Lists of paths of which one comes from the other by joining adjacent lists with colons and by cutting
    lists at colons. -/
inductive Regrouped : List String → List String → Prop
  | refl (lists : List String) : Regrouped lists lists
  | joined (before : List String) (first second : String) (after : List String) :
    Regrouped (before ++ first :: second :: after) (before ++ (first ++ ":" ++ second) :: after)
  | symm {lists lists' : List String} : Regrouped lists lists' → Regrouped lists' lists
  | trans {lists lists' lists'' : List String} :
    Regrouped lists lists' → Regrouped lists' lists'' → Regrouped lists lists''

/-- Two adjacent lists and the two joined make the same text together with the others. -/
theorem join_joined (before : List String) (first second : String) (after : List String) :
    Text.join ':' (before ++ (first ++ ":" ++ second) :: after) =
      Text.join ':' (before ++ first :: second :: after) := by
  have hpair : Text.join ':' [first, second] = first ++ ":" ++ second := by
    rw [Text.join_cons (List.cons_ne_nil _ _), Text.join_singleton]
    rfl
  have htail : Text.join ':' ((first ++ ":" ++ second) :: after) =
      Text.join ':' (first :: second :: after) := by
    by_cases hafter : after = []
    · rw [hafter, Text.join_singleton, hpair]
    · rw [Text.join_cons hafter, ← hpair,
        ← Text.join_append (List.cons_ne_nil first [second]) hafter]
      rfl
  by_cases hbefore : before = []
  · rw [hbefore, List.nil_append, List.nil_append, htail]
  · rw [Text.join_append hbefore (List.cons_ne_nil _ _), htail,
      ← Text.join_append hbefore (List.cons_ne_nil _ _)]

theorem Regrouped.join_eq {lists lists' : List String} (h : Regrouped lists lists') :
    Text.join ':' lists' = Text.join ':' lists := by
  induction h with
  | refl lists => rfl
  | joined before first second after => exact join_joined before first second after
  | symm _ ih => exact ih.symm
  | trans _ _ ih ih' => exact ih'.trans ih

namespace Sources

/-- All path lists of a host, in the order in which they are searched. -/
def lists (sources : Sources) : List String :=
  sources.bootPath ++ sources.extensionDirectories ++ sources.classPath

/-- The entries of the lists are those of one list, the text of all of them with colons in between. -/
theorem listed_eq (sources : Sources) :
    sources.listed = splitPathList (Text.join ':' sources.lists) :=
  (splitPathList_join sources.lists).symm

end Sources

/-! ## URLs -/

/-- The URLs that a search goes by. A loader that is given for the checker's is asked, and otherwise the
    host's own URLs are taken, if it names any. The system's loader comes in only where there is neither,
    or where the checker's loader does not tell its URLs. -/
inductive EffectiveUrls (sources : Sources) : Option UrlSource → Option UrlSource → List String → Prop
  | told (urls : List String) (system : Option UrlSource) :
    EffectiveUrls sources (some (.told urls)) system urls
  | named (system : Option UrlSource) (hnamed : sources.loaderUrls ≠ []) :
    EffectiveUrls sources none system sources.loaderUrls
  | toldBySystem {checker : Option UrlSource} (urls : List String)
    (hchecker : checker = some .silent ∨ checker = none ∧ sources.loaderUrls = []) :
    EffectiveUrls sources checker (some (.told urls)) urls
  | nowhere {checker system : Option UrlSource}
    (hchecker : checker = some .silent ∨ checker = none ∧ sources.loaderUrls = [])
    (hsystem : system = some .silent ∨ system = none) : EffectiveUrls sources checker system []

theorem exists_effectiveUrls (sources : Sources) (checker system : Option UrlSource) :
    ∃ urls, EffectiveUrls sources checker system urls := by
  have hfallback : (checker = some .silent ∨ checker = none ∧ sources.loaderUrls = []) →
      ∃ urls, EffectiveUrls sources checker system urls := by
    intro hchecker
    match system with
    | some (.told urls) => exact ⟨urls, .toldBySystem urls hchecker⟩
    | some .silent => exact ⟨[], .nowhere hchecker (Or.inl rfl)⟩
    | none => exact ⟨[], .nowhere hchecker (Or.inr rfl)⟩
  match checker with
  | some (.told urls) => exact ⟨urls, .told urls system⟩
  | some .silent => exact hfallback (Or.inl rfl)
  | none =>
    by_cases hnamed : sources.loaderUrls = []
    · exact hfallback (Or.inr ⟨rfl, hnamed⟩)
    · exact ⟨sources.loaderUrls, .named system hnamed⟩

namespace Collector

variable {sources : Sources} {checker system : Option UrlSource} {urls : List String}

/-- A host that names no URLs has no loader of the checker's to ask. -/
theorem checkerUrls_ofSources (sources : Sources) :
    (ofSources sources).checkerUrls =
      if sources.loaderUrls = [] then none else some (.told sources.loaderUrls) := by
  unfold ofSources
  simp only [List.isEmpty_iff]

/-- The URLs of a collector are those that the search is to go by. -/
theorem loaderUrls_eq (h : EffectiveUrls sources checker system urls) :
    (ofLoaders sources checker system).loaderUrls = urls := by
  have hsilent : (checker = some .silent ∨ checker = none ∧ sources.loaderUrls = []) →
      (ofLoaders sources checker system).loaderUrls = (UrlSource.urls? system).getD [] := by
    unfold loaderUrls ofLoaders
    rintro (rfl | ⟨rfl, hnone⟩)
    · rfl
    · rw [checkerUrls_ofSources, if_pos hnone]
      rfl
  cases h with
  | told => rfl
  | named _ hnamed =>
    unfold loaderUrls ofLoaders
    rw [checkerUrls_ofSources, if_neg hnamed]
    rfl
  | toldBySystem _ hchecker => exact hsilent hchecker
  | nowhere hchecker hsystem =>
    rw [hsilent hchecker]
    rcases hsystem with rfl | rfl <;> rfl

/-- The loader URLs of a host without other loaders are those that it names. -/
theorem loaderUrls_ofSources (sources : Sources) :
    (ofSources sources).loaderUrls = sources.loaderUrls := by
  unfold loaderUrls
  rw [checkerUrls_ofSources]
  by_cases hnamed : sources.loaderUrls = []
  · rw [if_pos hnamed, hnamed]
    rfl
  · rw [if_neg hnamed]
    rfl

/-! ## Collecting -/

/-- What is collected for a host without other loaders. -/
theorem collect_ofSources (sources : Sources) :
    (ofSources sources).collect.1 =
      .ofList (sources.lists.flatMap splitPathList ++ sources.loaderUrls.filterMap Url.toPath?) := by
  unfold collect
  rw [loaderUrls_ofSources]
  rfl

/-- What is collected depends on the text of all lists and on the URLs alone. -/
theorem collect_eq (h : EffectiveUrls sources checker system urls) :
    (ofLoaders sources checker system).collect =
      (.ofList (splitPathList (Text.join ':' sources.lists) ++ urls.filterMap Url.toPath?),
        (urls.filter fun url => (Url.toPath? url).isNone).map malformedUrl) := by
  have hsources : (ofLoaders sources checker system).sources = sources := rfl
  unfold collect
  rw [loaderUrls_eq h, hsources, Sources.listed_eq]

/-- The first lists of a host come first on its search path. -/
theorem isPrefix_collect {before after : List String} (hlists : sources.lists = before ++ after) :
    (before.flatMap splitPathList).eraseDups <+: (ofSources sources).collect.1.entries := by
  rw [collect_ofSources, SearchPath.entries_ofList, hlists, List.flatMap_append, List.append_assoc]
  exact eraseDups_isPrefix (List.prefix_append _ _)

/-- **A host's first path comes first on its search path exactly if it has no colon.** With a colon it is
    taken for a list, and the first entry is not the path but the first of its pieces. -/
theorem singleton_isPrefix_collect_iff {path : String} {rest : List String} {c : Char}
    (hlists : sources.lists = path :: rest) (hmem : c ∈ path.toList) (hcolon : c ≠ ':') :
    [path] <+: (ofSources sources).collect.1.entries ↔ ':' ∉ path.toList := by
  constructor
  · intro hbegins
    obtain ⟨first, others, hpieces⟩ := List.exists_cons_of_ne_nil (splitPathList_ne_nil hmem hcolon)
    rw [collect_ofSources, SearchPath.entries_ofList, hlists, List.flatMap_cons, hpieces,
      List.cons_append, List.cons_append, List.eraseDups_cons] at hbegins
    obtain ⟨rfl, -⟩ := List.cons_prefix_cons.mp hbegins
    have hfirst : path ∈ splitPathList path := hpieces ▸ List.mem_cons_self
    exact colon_notMem_of_mem_splitPathList hfirst
  · intro hwhole
    have hne : path ≠ "" := by
      rintro rfl
      exact absurd hmem (by simp)
    have hfirst : sources.lists = [path] ++ rest := hlists
    have hbegins := isPrefix_collect hfirst
    rw [List.flatMap_singleton, (splitPathList_eq_singleton_iff hne).mpr hwhole,
      eraseDups_of_nodup (List.nodup_singleton path)] at hbegins
    exact hbegins

theorem ne_empty_of_mem_collect {collector : Collector} {entry : String}
    (h : entry ∈ collector.collect.1.entries) : entry ≠ "" := by
  unfold collect at h
  rw [SearchPath.entries_ofList, List.mem_eraseDups] at h
  rcases List.mem_append.mp h with hlisted | hnamed
  · obtain ⟨list, -, hlist⟩ := List.mem_flatMap.mp hlisted
    exact ne_empty_of_mem_splitPathList hlist
  · obtain ⟨url, -, hurl⟩ := List.mem_filterMap.mp hnamed
    exact Url.ne_empty_of_toPath? hurl

/-- **What a search path is collected from.** Let `urls` be the URLs that the search goes by. The entries
    are the paths of the boot lists, of the extension lists and of the class path lists, and then those
    that the URLs name, each where it first comes and none of them empty; there is one note for each URL
    that names none, in their order. So how the paths are distributed over the lists does not matter:
    any hosts whose lists make the same text with colons in between, and whose searches go by the same
    URLs, give the same entries and the same notes. -/
theorem collect_exact (sources : Sources) (checker system : Option UrlSource) :
    ∃ urls, EffectiveUrls sources checker system urls ∧
      (ofLoaders sources checker system).collect.1.entries =
        (sources.bootPath.flatMap splitPathList ++ sources.extensionDirectories.flatMap splitPathList ++
          sources.classPath.flatMap splitPathList ++ urls.filterMap Url.toPath?).eraseDups ∧
      (ofLoaders sources checker system).collect.1.entries.Nodup ∧
      "" ∉ (ofLoaders sources checker system).collect.1.entries ∧
      (ofLoaders sources checker system).collect.2 =
        (urls.filter fun url => (Url.toPath? url).isNone).map malformedUrl ∧
      (∀ sources' checker' system', EffectiveUrls sources' checker' system' urls →
        Text.join ':' sources'.lists = Text.join ':' sources.lists →
        (ofLoaders sources' checker' system').collect = (ofLoaders sources checker system).collect) ∧
      ∀ sources', sources'.loaderUrls = sources.loaderUrls → Regrouped sources.lists sources'.lists →
        (ofLoaders sources' checker system).collect = (ofLoaders sources checker system).collect := by
  obtain ⟨urls, hurls⟩ := exists_effectiveUrls sources checker system
  have hcollect := collect_eq hurls
  have htexts : ∀ sources' checker' system', EffectiveUrls sources' checker' system' urls →
      Text.join ':' sources'.lists = Text.join ':' sources.lists →
      (ofLoaders sources' checker' system').collect = (ofLoaders sources checker system).collect := by
    intro sources' checker' system' hurls' htext
    rw [collect_eq hurls', hcollect, htext]
  refine ⟨urls, hurls, ?_, SearchPath.distinct _, fun hempty => ne_empty_of_mem_collect hempty rfl, ?_,
    htexts, ?_⟩
  · rw [hcollect, SearchPath.entries_ofList, splitPathList_join, Sources.lists, List.flatMap_append,
      List.flatMap_append]
  · rw [hcollect]
  · intro sources' hnamed hregrouped
    refine htexts sources' checker system ?_ hregrouped.join_eq
    -- which URLs the search goes by does not depend on the lists
    cases hurls with
    | told => exact .told _ _
    | named _ hne => exact hnamed ▸ .named system (hnamed ▸ hne)
    | toldBySystem _ hchecker => exact .toldBySystem _ (hnamed ▸ hchecker)
    | nowhere hchecker hsystem => exact .nowhere (hnamed ▸ hchecker) hsystem

end Collector

end QualifierDiscovery
