import QualifierDiscovery.Bootstrap
import QualifierDiscovery.Proofs.FirstMatch

/-!
# `Proofs.Precedence` — what a host adds never shadows the environment

A host's class path and loader URLs are searched behind what the environment lists. Repetitions are left out
where they come last, so the shorter search path is the beginning of the longer one (`collect_isPrefix`), and a
package that is found on the shorter one is found at the same place on the longer one. A build looks at its
search path for nothing else.

## Contents
- **Searches.** `locate_of_isPrefix` — a search that succeeds is not changed by what is put behind.
- **Entries.** `LoaderOptions.entries` — what is searched, and `collect_isPrefix`.
- **Builds.** `LoaderOptions.FindsAt`, `build_of_isPrefix`, and `build_searching` for the host's additions.
-/

namespace QualifierDiscovery

/-! ## Searches -/

/-- A longer list of entries is searched first where the shorter one is. -/
theorem SearchPath.entries_isPrefix {before after : List String} (h : before <+: after) :
    (SearchPath.ofList before).entries <+: (SearchPath.ofList after).entries := by
  rw [entries_ofList, entries_ofList]
  exact eraseDups_isPrefix h

/-- A search that succeeds is not changed by what is put behind the entries. -/
theorem locate_of_isPrefix {fs : FileSystem} {layout : Layout} {package : Package}
    {path path' : SearchPath} {location : Location} (hbegins : path.entries <+: path'.entries)
    (hfound : (locate fs layout package path).1 = some location) :
    (locate fs layout package path').1 = some location := by
  rw [locate_eq_findSome?] at hfound ⊢
  obtain ⟨rest, hrest⟩ := hbegins
  rw [← hrest, List.findSome?_append, hfound]
  rfl

/-- The check of a setup does not look at the search path. -/
theorem LoaderSetup.check_withSearchPath (setup : LoaderSetup) (path : SearchPath) :
    ({ setup with searchPath := path } : LoaderSetup).check = setup.check := rfl

/-- A build looks at its search path only to find the location. -/
theorem LoaderSetup.build_withSearchPath {setup : LoaderSetup} {resolver : Resolver}
    {package : Package} {fs : FileSystem} {path : SearchPath}
    (hcheck : setup.check = .ok (resolver, package))
    (hlocation : ({ setup with searchPath := path } : LoaderSetup).location fs package =
      setup.location fs package) :
    (({ setup with searchPath := path } : LoaderSetup).build fs).1 = (setup.build fs).1 := by
  have hcheck' := (setup.check_withSearchPath path).trans hcheck
  rw [build_eq hcheck', build_eq hcheck, hlocation]
  rfl

namespace LoaderOptions

variable {options : LoaderOptions} {fs : FileSystem} {environment environment' : Sources}
  {location : Location} {classPath classPath' loaderUrls loaderUrls' : List String}

/-! ## Entries -/

/-- The options with another class path and other loader URLs. -/
def searching (options : LoaderOptions) (classPath loaderUrls : List String) : LoaderOptions :=
  { options with classPath := classPath, loaderUrls := loaderUrls }

/-- What is searched for a host in an environment, with the repetitions. -/
def entries (options : LoaderOptions) (environment : Sources) : List String :=
  (environment.lists ++ options.classPath).flatMap splitPathList ++
    (environment.loaderUrls ++ options.loaderUrls).filterMap Url.toPath?

theorem collect_eq (options : LoaderOptions) (environment : Sources) :
    (options.collect environment).1 = .ofList (options.entries environment) := by
  have hlists : ((environment.withClassPath options.classPath).withLoaderUrls
      options.loaderUrls).lists = environment.lists ++ options.classPath := by
    unfold Sources.lists
    exact (List.append_assoc _ _ _).symm
  unfold collect
  rw [Collector.collect_ofSources, hlists]
  rfl

/-- **The shorter search path is the beginning of the longer one**, after the repetitions have been left
    out as well. -/
theorem collect_isPrefix {options' : LoaderOptions}
    (h : options.entries environment <+: options'.entries environment') :
    (options.collect environment).1.entries <+: (options'.collect environment').1.entries := by
  rw [collect_eq, collect_eq]
  exact SearchPath.entries_isPrefix h

theorem entries_searching (options : LoaderOptions) (environment : Sources)
    (classPath loaderUrls : List String) :
    (options.searching classPath loaderUrls).entries environment =
      environment.lists.flatMap splitPathList ++ classPath.flatMap splitPathList ++
        (environment.loaderUrls.filterMap Url.toPath? ++ loaderUrls.filterMap Url.toPath?) := by
  unfold entries searching
  rw [List.flatMap_append, List.filterMap_append]

/-- Where no URLs are searched, more of the class path and any URLs come behind the entries. -/
theorem entries_isPrefix_of_no_urls (h : environment.loaderUrls = [])
    (classPath more loaderUrls named : List String) :
    (options.searching classPath []).entries environment <+:
      (options.searching (classPath ++ more) loaderUrls).entries
        { environment with loaderUrls := named } := by
  have hlists : ({ environment with loaderUrls := named } : Sources).lists = environment.lists := rfl
  rw [entries_searching, entries_searching, h, hlists, List.flatMap_append, List.filterMap_nil,
    List.append_nil, List.append_nil]
  -- what is listed before the additions stands first on both sides
  rw [← List.append_assoc (environment.lists.flatMap splitPathList), List.append_assoc]
  exact List.prefix_append _ _

/-- More loader URLs come behind the entries. -/
theorem entries_isPrefix_of_more_urls (more : List String) :
    (options.searching classPath loaderUrls).entries environment <+:
      (options.searching classPath (loaderUrls ++ more)).entries environment := by
  rw [entries_searching, entries_searching, List.filterMap_append, ← List.append_assoc,
    ← List.append_assoc, ← List.append_assoc]
  exact List.prefix_append _ _

/-! ## Builds -/

/-- A host's files can be read, its setup is right, and the package of the checker's qualifiers is found
    at a location. -/
def FindsAt (options : LoaderOptions) (fs : FileSystem) (environment : Sources) (location : Location) :
    Prop :=
  ∃ config registry resolver package, options.read fs = .ok (config, registry) ∧
    (options.setup config registry (options.collect environment).1).check = .ok (resolver, package) ∧
    (options.setup config registry (options.collect environment).1).location fs package = some location

@[simp] theorem read_searching :
    (options.searching classPath loaderUrls).read fs = options.read fs := rfl

theorem setup_searching (options : LoaderOptions) (config : Config) (registry : Registry)
    (path path' : SearchPath) (classPath classPath' loaderUrls loaderUrls' : List String) :
    (options.searching classPath' loaderUrls').setup config registry path' =
      { (options.searching classPath loaderUrls).setup config registry path with
        searchPath := path' } := rfl

/-- A host that names no files has the standard configuration and the built-in descriptors. -/
theorem exists_read_of_no_files (hmanifests : options.manifests = []) (hconfig : options.configFile = none) :
    ∃ registry, options.read fs = .ok (.standard, registry) := by
  obtain ⟨registry, hregistry⟩ := Registry.exists_load_nil fs
  refine ⟨registry, ?_⟩
  unfold read config
  rw [hmanifests, hconfig, hregistry]
  rfl

theorem build_eq {config : Config} {registry : Registry}
    (hread : options.read fs = .ok (config, registry)) (environment : Sources) :
    (options.build fs environment).1 =
      ((options.setup config registry (options.collect environment).1).build fs).1 := by
  unfold build
  rw [hread]

/-- A loader that is built has the location. -/
theorem FindsAt.location_eq (h : options.FindsAt fs environment location) {loader : Loader}
    (hbuild : (options.build fs environment).1 = .ok loader) : loader.location = some location := by
  obtain ⟨config, registry, resolver, package, hread, hcheck, hlocation⟩ := h
  rw [build_eq hread] at hbuild
  obtain ⟨resolver', package', set, hcheck', -, rfl⟩ := LoaderSetup.exists_of_build hbuild
  -- the setup has been checked once, so the packages are the same
  rw [hcheck] at hcheck'
  obtain rfl : package = package' := (Prod.mk.inj (Except.ok.inj hcheck')).2
  exact hlocation

/-- **What comes behind the entries changes nothing** where the package is found: the build has the same
    outcome, and the package is found at the same location. -/
theorem build_of_isPrefix
    (hfinds : (options.searching classPath loaderUrls).FindsAt fs environment location)
    (hbegins : (options.searching classPath loaderUrls).entries environment <+:
      (options.searching classPath' loaderUrls').entries environment') :
    ((options.searching classPath' loaderUrls').build fs environment').1 =
        ((options.searching classPath loaderUrls).build fs environment).1 ∧
      (options.searching classPath' loaderUrls').FindsAt fs environment' location := by
  obtain ⟨config, registry, resolver, package, hread, hcheck, hlocation⟩ := hfinds
  have hread' : (options.searching classPath' loaderUrls').read fs = .ok (config, registry) := by
    rw [read_searching] at hread ⊢
    exact hread
  -- the setups differ in their search paths only
  have hsetup := setup_searching options config registry
    ((options.searching classPath loaderUrls).collect environment).1
    ((options.searching classPath' loaderUrls').collect environment').1
    classPath classPath' loaderUrls loaderUrls'
  have hcheck' := (LoaderSetup.check_withSearchPath _
    ((options.searching classPath' loaderUrls').collect environment').1).trans hcheck
  rw [← hsetup] at hcheck'
  have hlocation' : ((options.searching classPath' loaderUrls').setup config registry
      ((options.searching classPath' loaderUrls').collect environment').1).location fs package =
        some location :=
    locate_of_isPrefix (collect_isPrefix hbegins) hlocation
  refine ⟨?_, config, registry, resolver, package, hread', hcheck', hlocation'⟩
  rw [build_eq hread', build_eq hread, hsetup]
  rw [hsetup] at hlocation'
  exact LoaderSetup.build_withSearchPath hcheck (hlocation'.trans hlocation.symm)

/-- **What a host adds never shadows the environment.** If the package is found in an environment without
    loader URLs, and without additions of the host's, any class path and any URLs of the host's leave the
    outcome of the build as it is. URLs that a host puts behind its own do so wherever the package is
    found, and wherever it is found without any URLs, no URLs of the environment's or of the host's make
    a difference. -/
theorem build_searching (options : LoaderOptions) (fs : FileSystem) (environment : Sources)
    (location : Location) :
    (environment.loaderUrls = [] → (options.searching [] []).FindsAt fs environment location →
      ∀ classPath loaderUrls,
        ((options.searching classPath loaderUrls).build fs environment).1 =
          ((options.searching [] []).build fs environment).1 ∧
        (options.searching classPath loaderUrls).FindsAt fs environment location) ∧
      (∀ classPath loaderUrls more,
        (options.searching classPath loaderUrls).FindsAt fs environment location →
        ((options.searching classPath (loaderUrls ++ more)).build fs environment).1 =
          ((options.searching classPath loaderUrls).build fs environment).1 ∧
        (options.searching classPath (loaderUrls ++ more)).FindsAt fs environment location) ∧
      (∀ classPath loaderUrls named,
        (options.searching classPath []).FindsAt fs { environment with loaderUrls := [] } location →
        ((options.searching classPath loaderUrls).build fs
            { environment with loaderUrls := named }).1 =
          ((options.searching classPath []).build fs { environment with loaderUrls := [] }).1 ∧
        (options.searching classPath loaderUrls).FindsAt fs
          { environment with loaderUrls := named } location) ∧
      (options.FindsAt fs environment location →
        ∀ loader, (options.build fs environment).1 = .ok loader → loader.location = some location) := by
  refine ⟨?_, ?_, ?_, fun hfinds loader hbuild => hfinds.location_eq hbuild⟩
  · intro hnone hfinds classPath loaderUrls
    -- the environment is left as it is
    exact build_of_isPrefix hfinds
      (entries_isPrefix_of_no_urls hnone [] classPath loaderUrls environment.loaderUrls)
  · intro classPath loaderUrls more hfinds
    exact build_of_isPrefix hfinds (entries_isPrefix_of_more_urls more)
  · intro classPath loaderUrls named hfinds
    have hnone : ({ environment with loaderUrls := [] } : Sources).loaderUrls = [] := rfl
    have hbegins := @entries_isPrefix_of_no_urls options _ hnone classPath [] loaderUrls named
    rw [List.append_nil] at hbegins
    exact build_of_isPrefix hfinds hbegins

/-- A class path with the package in it, behind which a host puts it again, and a URL that is none. -/
theorem build_searching_oneFile :
    FindsAt (searching ⟨"Demo", [], [], [], none⟩ [] []) (LoaderSetup.oneFile "C.class" (by decide))
        ⟨[], [], ["/cp"], []⟩ (.directory "/cp/qual") ∧
      FindsAt (searching ⟨"Demo", [], [], [], none⟩ ["/nowhere:/cp"] ["cp", "file:///cp/"])
        (LoaderSetup.oneFile "C.class" (by decide)) ⟨[], [], ["/cp"], []⟩ (.directory "/cp/qual") := by
  have hfinds : FindsAt (searching ⟨"Demo", [], [], [], none⟩ [] [])
      (LoaderSetup.oneFile "C.class" (by decide)) ⟨[], [], ["/cp"], []⟩ (.directory "/cp/qual") := by
    obtain ⟨registry, hread⟩ :=
      @exists_read_of_no_files (searching ⟨"Demo", [], [], [], none⟩ [] [])
        (LoaderSetup.oneFile "C.class" (by decide)) rfl rfl
    refine ⟨.standard, registry, registry.resolve, ⟨"qual", by decide⟩, hread, ?_, ?_⟩
    · have hfault : Config.standard.fault? = none := by decide
      have hpackage : Package.forNamespace? (Checker.ofTypeName "Demo").namespaceName
          Config.standard.packageSuffix = some ⟨"qual", by decide⟩ := by decide
      exact LoaderSetup.check_eq_ok_iff.mpr ⟨hfault, rfl, hpackage⟩
    · have hentries : (searching ⟨"Demo", [], [], [], none⟩ [] []).entries ⟨[], [], ["/cp"], []⟩ =
          ["/cp"] := by decide
      rw [collect_eq, hentries]
      rfl
  obtain ⟨hadded, -⟩ := build_searching ⟨"Demo", [], [], [], none⟩
    (LoaderSetup.oneFile "C.class" (by decide)) ⟨[], [], ["/cp"], []⟩ (.directory "/cp/qual")
  exact ⟨hfinds, (hadded rfl hfinds ["/nowhere:/cp"] ["cp", "file:///cp/"]).2⟩

end LoaderOptions

end QualifierDiscovery
