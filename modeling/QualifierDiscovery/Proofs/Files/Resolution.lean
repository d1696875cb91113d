import QualifierDiscovery.Files.FileSystem
import QualifierDiscovery.Proofs.Files.Paths

/-!
# `Proofs.Files.Resolution` — what a path below a directory leads to

A path that leads to a directory can be lengthened by the name of an entry, and the longer path leads to
that entry (`resolve_join`), whatever links the first part went through. This is the step that every
descent and every walk is made of: the place reached so far stands for the whole path before it.

## Contents
- **Following steps.** `Leads` has one case for each thing that a step can do (`leads_of_follow`);
  `follow_present` — what is found stands at the place that is given for it; `followLinks_append` — steps
  that lead somewhere can be followed by further ones from there.
- **Paths.** `exists_resolve_join_eq_follow` — a name below a path is one more step; `resolve_join` for the
  name of an entry, and `exists_mem_of_resolve_join` — there is no other name that leads on;
  `isDirectory_iff`, `isFile_iff`, `listDirectory_eq` read the tests and the listing off the target of the
  path.
- **Directories that refuse to be listed.** `Listable` — a path leads to a directory that does not;
  `listDirectory_eq_error` for one that does, and `listable_iff_isDirectory` where there is none.
-/

namespace QualifierDiscovery.FileSystem

open Text (split)

/-! ## Following steps -/

section Following

variable {root : Node} {jump : Place → List String → Except FileError Target}
  {here place : Place} {node : Node} {names : List String} {target : Target}

/-- Where the steps of a path lead, with one case for each thing that a step can do. -/
inductive Leads (root : Node) (jump : Place → List String → Except FileError Target) :
    Place → List String → Target → Prop
  | here {here : Place} {node : Node} (hhere : root.at? here = some node) :
    Leads root jump here [] (.present here node)
  | dot {here : Place} {entries : List (String × Node)} {rest : List String} {target : Target}
    (hhere : root.at? here = some (.directory entries)) (hrest : Leads root jump here rest target) :
    Leads root jump here ("." :: rest) target
  | dots {here : Place} {entries : List (String × Node)} {rest : List String} {target : Target}
    (hhere : root.at? here = some (.directory entries))
    (hrest : Leads root jump here.dropLast rest target) : Leads root jump here (".." :: rest) target
  | free {here : Place} {entries : List (String × Node)} {name : String}
    (hhere : root.at? here = some (.directory entries)) (hname : name ≠ "." ∧ name ≠ "..")
    (hfree : root.at? (here ++ [name]) = none) : Leads root jump here [name] (.vacant here name)
  | link {here : Place} {entries : List (String × Node)} {name text : String} {rest : List String}
    {target : Target} (hhere : root.at? here = some (.directory entries))
    (hname : name ≠ "." ∧ name ≠ "..") (hlink : root.at? (here ++ [name]) = some (.link text))
    (hjump : jump (if Path.isAbsolute text then [] else here) (steps text ++ rest) = .ok target) :
    Leads root jump here (name :: rest) target
  | entry {here : Place} {entries : List (String × Node)} {name : String} {node : Node}
    {rest : List String} {target : Target} (hhere : root.at? here = some (.directory entries))
    (hname : name ≠ "." ∧ name ≠ "..") (hnode : root.at? (here ++ [name]) = some node)
    (hlink : ∀ text, node ≠ .link text) (hrest : Leads root jump (here ++ [name]) rest target) :
    Leads root jump here (name :: rest) target

theorem leads_of_follow (h : follow root jump here names = .ok target) :
    Leads root jump here names target := by
  induction names generalizing here with
  | nil =>
    unfold follow at h
    split at h
    · next node hhere =>
      obtain rfl := Except.ok.inj h
      exact .here hhere
    · exact absurd h (by simp)
  | cons name rest ih =>
    unfold follow at h
    split at h
    · next entries hhere =>
      by_cases hdot : name = "."
      · subst hdot
        exact .dot hhere (ih (by simpa using h))
      · by_cases hdots : name = ".."
        · subst hdots
          exact .dots hhere (ih (by simpa using h))
        · have hentry : root.at? (here ++ [name]) = Text.valueAt? name entries := Node.at?_concat hhere
          rw [if_neg hdot, if_neg hdots] at h
          split at h
          · next hnone =>
            split at h
            · next hrest =>
              obtain rfl := List.isEmpty_iff.mp hrest
              obtain rfl := Except.ok.inj h
              exact .free hhere ⟨hdot, hdots⟩ (hentry.trans hnone)
            · exact absurd h (by simp)
          · next text hlink => exact .link hhere ⟨hdot, hdots⟩ (hentry.trans hlink) h
          · next node hlink hsome =>
            exact .entry hhere ⟨hdot, hdots⟩ (hentry.trans hsome) hlink (ih h)
    · exact absurd h (by simp)
    · exact absurd h (by simp)

theorem Leads.follow (h : Leads root jump here names target) :
    follow root jump here names = .ok target := by
  induction h with
  | here hhere => rw [FileSystem.follow, hhere]
  | dot hhere _ ih =>
    rw [FileSystem.follow, hhere]
    exact ih
  | dots hhere _ ih =>
    rw [FileSystem.follow, hhere]
    exact ih
  | free hhere hname hfree =>
    rw [Node.at?_concat hhere] at hfree
    rw [FileSystem.follow, hhere]
    simp only [if_neg hname.1, if_neg hname.2, hfree]
    rfl
  | link hhere hname hlink hjump =>
    rw [Node.at?_concat hhere] at hlink
    rw [FileSystem.follow, hhere]
    simp only [if_neg hname.1, if_neg hname.2, hlink]
    exact hjump
  | @entry here entries name node rest target hhere hname hnode hlink _ ih =>
    rw [Node.at?_concat hhere] at hnode
    rw [FileSystem.follow, hhere]
    simp only [if_neg hname.1, if_neg hname.2, hnode]
    cases node with
    | link text => exact absurd rfl (hlink text)
    | file content => exact ih
    | directory below => exact ih

theorem followLinks_eq_follow (root : Node) (budget : Nat) :
    ∃ jump, followLinks root budget = follow root jump := by
  cases budget with
  | zero => exact ⟨_, rfl⟩
  | succ budget => exact ⟨_, rfl⟩

theorem follow_nil_eq_present_iff :
    follow root jump here [] = .ok (.present place node) ↔
      here = place ∧ root.at? place = some node := by
  unfold follow
  cases hhere : root.at? here with
  | none =>
    simp only [reduceCtorEq, false_iff, not_and]
    rintro rfl
    simp [hhere]
  | some found =>
    simp only [Except.ok.injEq, Target.present.injEq]
    constructor
    · rintro ⟨rfl, rfl⟩
      exact ⟨rfl, hhere⟩
    · rintro ⟨rfl, hat⟩
      exact ⟨rfl, Option.some.inj (hhere.symm.trans hat)⟩

/-- What one step can do on the way to a node: it goes on from another place with the steps still to
    come, or a link puts its target in front of them. -/
theorem follow_cons_cases {step : String} {rest : List String}
    (h : follow root jump here (step :: rest) = .ok (.present place node)) :
    (∃ there, follow root jump there rest = .ok (.present place node) ∧
      ∀ others, follow root jump here (step :: others) = follow root jump there others) ∨
    (∃ there before, jump there (before ++ rest) = .ok (.present place node) ∧
      ∀ others, follow root jump here (step :: others) = jump there (before ++ others)) := by
  unfold follow at h
  split at h
  · next entries hdirectory =>
    by_cases hdot : step = "."
    · rw [if_pos hdot] at h
      exact Or.inl ⟨here, h, fun others => by rw [follow, hdirectory]; exact if_pos hdot⟩
    · by_cases hdots : step = ".."
      · rw [if_neg hdot, if_pos hdots] at h
        refine Or.inl ⟨here.dropLast, h, fun others => ?_⟩
        rw [follow, hdirectory]
        exact (if_neg hdot).trans (if_pos hdots)
      · rw [if_neg hdot, if_neg hdots] at h
        split at h
        · split at h <;> exact absurd h (by simp)
        · next target hentry =>
          refine Or.inr ⟨_, _, h, fun others => ?_⟩
          rw [follow, hdirectory]
          simp only [if_neg hdot, if_neg hdots, hentry]
        · next found hlink hentry =>
          refine Or.inl ⟨_, h, fun others => ?_⟩
          rw [follow, hdirectory]
          simp only [if_neg hdot, if_neg hdots, hentry]
  · exact absurd h (by simp)
  · exact absurd h (by simp)

/-- What is found stands at its place, if that is so after every link. -/
theorem follow_present
    (hjump : ∀ here steps, jump here steps = .ok (.present place node) → root.at? place = some node)
    {steps : List String} (h : follow root jump here steps = .ok (.present place node)) :
    root.at? place = some node := by
  induction steps generalizing here with
  | nil => exact (follow_nil_eq_present_iff.mp h).2
  | cons step rest ih =>
    rcases follow_cons_cases h with ⟨there, hthere, -⟩ | ⟨there, before, hthere, -⟩
    · exact ih hthere
    · exact hjump _ _ hthere

theorem followLinks_present {budget : Nat} {steps : List String}
    (h : followLinks root budget here steps = .ok (.present place node)) :
    root.at? place = some node := by
  induction budget generalizing here steps with
  | zero => exact follow_present (fun _ _ hjump => absurd hjump (by simp)) h
  | succ budget ih => exact follow_present (fun _ _ hjump => ih hjump) h

/-- One step to an entry that is no link. -/
theorem follow_entry {entries : List (String × Node)} {name : String}
    (hplace : root.at? place = some (.directory entries)) (hname : isEntryName name = true)
    (hentry : Text.valueAt? name entries = some node) (hlink : ∀ target, node ≠ .link target) :
    follow root jump place [name] = .ok (.present (place ++ [name]) node) := by
  obtain ⟨-, hdot, hdots, -, -⟩ := isEntryName_iff.mp hname
  unfold follow
  simp only [hplace, if_neg hdot, if_neg hdots, hentry]
  have hnext : follow root jump (place ++ [name]) [] = .ok (.present (place ++ [name]) node) :=
    follow_nil_eq_present_iff.mpr ⟨rfl, (Node.at?_concat hplace).trans hentry⟩
  cases node with
  | link target => exact absurd rfl (hlink target)
  | file content => exact hnext
  | directory below => exact hnext

/-- The step lemma of `followLinks_append`: the steps up to the next link. A final dot among the steps
    that lead to a directory does not matter to those that follow. -/
theorem follow_append {budget : Nat} {entries : List (String × Node)} {closing : List String}
    (rest : List String) (hclosing : closing = [] ∨ closing = ["."])
    (hbudget : followLinks root budget = follow root jump)
    (hjump : ∀ here steps, jump here (steps ++ closing) = .ok (.present place (.directory entries)) →
      ∃ budget, jump here (steps ++ rest) = followLinks root budget place rest)
    {steps : List String}
    (h : follow root jump here (steps ++ closing) = .ok (.present place (.directory entries))) :
    ∃ budget, follow root jump here (steps ++ rest) = followLinks root budget place rest := by
  induction steps generalizing here with
  | nil =>
    -- at most the dot is left, and it stays where it is
    have hhere : here = place := by
      rcases hclosing with rfl | rfl
      · exact (follow_nil_eq_present_iff.mp h).1
      · rw [List.nil_append, follow] at h
        split at h
        · rw [if_pos rfl] at h
          exact (follow_nil_eq_present_iff.mp h).1
        · exact absurd h (by simp)
        · exact absurd h (by simp)
    exact ⟨budget, by rw [hbudget, hhere, List.nil_append]⟩
  | cons step steps ih =>
    rw [List.cons_append] at h ⊢
    rcases follow_cons_cases h with ⟨there, hthere, hothers⟩ | ⟨there, before, hthere, hothers⟩
    · rw [hothers]
      exact ih hthere
    · rw [hothers]
      rw [← List.append_assoc] at hthere ⊢
      exact hjump _ _ hthere

/-- **Steps that lead to a directory can be followed by more**, which are then taken from there with what
    is left of the links. By induction over the links allowed, and over the steps up to the next one. -/
theorem followLinks_append {budget : Nat} {entries : List (String × Node)}
    {steps closing : List String} (rest : List String) (hclosing : closing = [] ∨ closing = ["."])
    (h : followLinks root budget here (steps ++ closing) = .ok (.present place (.directory entries))) :
    ∃ budget', followLinks root budget here (steps ++ rest) = followLinks root budget' place rest := by
  induction budget generalizing here steps with
  | zero =>
    exact follow_append rest hclosing (followLinks.eq_def root 0)
      (fun _ _ hjump => absurd hjump (by simp)) h
  | succ budget ih =>
    exact follow_append rest hclosing (followLinks.eq_def root (budget + 1))
      (fun _ _ hjump => ih hjump) h

end Following

/-! ## Paths -/

/-- The steps of a path are its pieces, and a dot for a final slash. -/
theorem exists_steps_eq (path : String) :
    ∃ closing, (closing = [] ∨ closing = ["."]) ∧ steps path = Path.pieces path ++ closing := by
  unfold steps
  dsimp only
  split
  · exact ⟨["."], Or.inr rfl, rfl⟩
  · exact ⟨[], Or.inl rfl, (List.append_nil _).symm⟩

/-- A path with something behind its last slash has just its pieces for steps. -/
theorem steps_eq_pieces {path last : String} {front : List String}
    (hsplit : split '/' path = front ++ [last]) (hlast : last ≠ "") :
    steps path = Path.pieces path := by
  unfold steps Path.pieces
  rw [hsplit]
  simp [hlast]

/-- A name below a path is one more step. -/
theorem steps_join {base name : String} (hbase : base ≠ "") (hempty : name ≠ "")
    (hname : '/' ∉ name.toList) : steps (Path.join base name) = Path.pieces base ++ [name] := by
  obtain ⟨front, -, hjoin, -⟩ := Path.split_join_path hbase hname
  rw [steps_eq_pieces hjoin hempty, Path.pieces_join hbase hempty hname]

variable {fs : FileSystem} {path : String} {place : Place} {node : Node}

theorem resolve_eq_ok_iff {target : Target} :
    fs.resolve path = .ok target ↔
      '\x00' ∉ path.toList ∧ path ≠ "" ∧
        followLinks fs.root linkLimit (fs.startOf path) (steps path) = .ok target := by
  unfold resolve
  by_cases hnul : '\x00' ∈ path.toList
  · simp [hnul]
  · by_cases hempty : path = ""
    · simp [hempty]
    · simp [hnul, hempty]

theorem resolve_eq_followLinks (hnul : '\x00' ∉ path.toList) (hempty : path ≠ "") :
    fs.resolve path = followLinks fs.root linkLimit (fs.startOf path) (steps path) := by
  unfold resolve
  rw [if_neg (by simpa using hnul), if_neg (by simpa using hempty)]

theorem at?_of_resolve (h : fs.resolve path = .ok (.present place node)) :
    fs.root.at? place = some node :=
  followLinks_present (resolve_eq_ok_iff.mp h).2.2

theorem wellFormed_of_resolve {entries : List (String × Node)}
    (h : fs.resolve path = .ok (.present place (.directory entries))) : EntriesWellFormed entries := by
  have hnode := fs.wellFormed.at? (at?_of_resolve h)
  rwa [Node.WellFormed] at hnode

theorem ne_empty_of_resolve {target : Target} (h : fs.resolve path = .ok target) : path ≠ "" :=
  (resolve_eq_ok_iff.mp h).2.1

theorem notMem_nul_join {base name : String} (hbase : '\x00' ∉ base.toList) (hempty : base ≠ "")
    (hname : isEntryName name = true) : '\x00' ∉ (Path.join base name).toList := by
  obtain ⟨-, -, -, hslash, hnul⟩ := isEntryName_iff.mp hname
  rw [Path.join_eq hempty (Path.isAbsolute_eq_false hslash)]
  split <;> simp [String.toList_append, hbase, hnul]

/-- **A name below a path to a directory is one step from that directory.** How many links are left for it
    does not matter to the step itself. -/
theorem exists_resolve_join_eq_follow {entries : List (String × Node)} {name : String}
    (h : fs.resolve path = .ok (.present place (.directory entries)))
    (hname : isEntryName name = true) :
    ∃ jump, fs.resolve (Path.join path name) = follow fs.root jump place [name] := by
  obtain ⟨hnotEmpty, -, -, hnotSlash, -⟩ := isEntryName_iff.mp hname
  have hslash := Path.isAbsolute_eq_false hnotSlash
  obtain ⟨hnul, hempty, hfollow⟩ := resolve_eq_ok_iff.mp h
  have hjoined := steps_join hempty hnotEmpty hnotSlash
  -- a final slash of the path asked for a directory, and the step asks for the same
  obtain ⟨closing, hclosing, hsteps⟩ := exists_steps_eq path
  rw [hsteps] at hfollow
  obtain ⟨budget, hrest⟩ := followLinks_append [name] hclosing hfollow
  obtain ⟨jump, hjump⟩ := followLinks_eq_follow fs.root budget
  have hstart : fs.startOf (Path.join path name) = fs.startOf path := by
    unfold startOf
    rw [Path.isAbsolute_join hempty hslash]
  refine ⟨jump, ?_⟩
  rw [resolve_eq_followLinks (notMem_nul_join hnul hempty hname) (Path.join_ne_empty hempty hslash),
    hstart, hjoined, hrest, hjump]

/-- **A path to a directory and the name of an entry lead to the entry**, where that is no link. -/
theorem resolve_join {entries : List (String × Node)} {name : String}
    (h : fs.resolve path = .ok (.present place (.directory entries)))
    (hentry : (name, node) ∈ entries) (hlink : ∀ target, node ≠ .link target) :
    fs.resolve (Path.join path name) = .ok (.present (place ++ [name]) node) := by
  have hwf := wellFormed_of_resolve h
  have hname := hwf.isEntryName_of_mem hentry
  obtain ⟨jump, hjump⟩ := exists_resolve_join_eq_follow h hname
  rw [hjump]
  exact follow_entry (at?_of_resolve h) hname ((valueAt?_eq_some_iff hwf).mpr hentry) hlink

/-- A name that leads on from a directory is that of one of its entries, a link perhaps. -/
theorem exists_mem_of_resolve_join {entries : List (String × Node)} {name : String} {there : Place}
    (h : fs.resolve path = .ok (.present place (.directory entries))) (hname : isEntryName name = true)
    (hjoin : fs.resolve (Path.join path name) = .ok (.present there node)) :
    ∃ child, (name, child) ∈ entries := by
  have hentry : ∀ child, fs.root.at? (place ++ [name]) = some child → (name, child) ∈ entries := by
    intro child hchild
    rw [Node.at?_concat (at?_of_resolve h)] at hchild
    exact Text.mem_of_valueAt?_eq_some hchild
  obtain ⟨jump, hjump⟩ := exists_resolve_join_eq_follow h hname
  rw [hjump] at hjoin
  cases leads_of_follow hjoin with
  | dot => exact absurd rfl (isEntryName_iff.mp hname).2.1
  | dots => exact absurd rfl (isEntryName_iff.mp hname).2.2.1
  | link _ _ hlink => exact ⟨_, hentry _ hlink⟩
  | entry _ _ hnode => exact ⟨_, hentry _ hnode⟩

/-- In a directory without links, the names that lead to a node below lead to it after the directory's
    path. -/
theorem resolve_joinAll {entries : List (String × Node)} {names : List String}
    (h : fs.resolve path = .ok (.present place (.directory entries)))
    (hfree : (Node.directory entries).LinkFree)
    (hnode : (Node.directory entries).at? names = some node) :
    fs.resolve (Path.joinAll path names) = .ok (.present (place ++ names) node) := by
  induction names generalizing path place entries with
  | nil =>
    rw [Node.at?, Option.some.injEq] at hnode
    rw [List.append_nil, ← hnode]
    exact h
  | cons name rest ih =>
    rw [Node.at?_directory_cons] at hnode
    obtain ⟨child, hchild, hbelow⟩ := Option.bind_eq_some_iff.mp hnode
    have hchildFree := hfree.of_mem (wellFormed_of_resolve h) (Text.mem_of_valueAt?_eq_some hchild)
    have hresolve := resolve_join h (Text.mem_of_valueAt?_eq_some hchild) hchildFree.ne_link
    rw [List.append_cons]
    cases child with
    | directory below => exact ih hresolve hchildFree hbelow
    | link target => exact absurd rfl (hchildFree.ne_link target)
    | file content =>
      cases rest with
      | nil =>
        rw [Node.at?, Option.some.injEq] at hbelow
        rw [List.append_nil, ← hbelow]
        exact hresolve
      | cons next more => exact absurd hbelow (by simp [Node.at?])

/-! ## Tests and listings -/

theorem nodeAt?_eq_some_iff :
    fs.nodeAt? path = some node ↔ ∃ place, fs.resolve path = .ok (.present place node) := by
  unfold nodeAt?
  split
  · next found hfound => simp [hfound]
  · next hother =>
    constructor
    · exact fun h => absurd h (by simp)
    · rintro ⟨place, hplace⟩
      exact absurd hplace (hother place node)

theorem isDirectory_iff :
    fs.isDirectory path = true ↔
      ∃ place entries, fs.resolve path = .ok (.present place (.directory entries)) := by
  unfold isDirectory
  constructor
  · intro h
    cases hnode : fs.nodeAt? path with
    | none => simp [hnode] at h
    | some node =>
      obtain ⟨place, hplace⟩ := nodeAt?_eq_some_iff.mp hnode
      cases node with
      | directory entries => exact ⟨place, entries, hplace⟩
      | file content => simp [hnode, Node.isDirectory] at h
      | link target => simp [hnode, Node.isDirectory] at h
  · rintro ⟨place, entries, hplace⟩
    rw [nodeAt?_eq_some_iff.mpr ⟨place, hplace⟩]
    rfl

/-- What leads nowhere is no directory. -/
theorem isDirectory_eq_false_of_not_contains (h : fs.contains path = false) :
    fs.isDirectory path = false := by
  rw [Bool.eq_false_iff]
  intro hdirectory
  obtain ⟨place, entries, hresolve⟩ := isDirectory_iff.mp hdirectory
  unfold contains at h
  rw [nodeAt?_eq_some_iff.mpr ⟨place, hresolve⟩] at h
  exact absurd h (by simp)

theorem isFile_iff :
    fs.isFile path = true ↔
      ∃ place content, fs.resolve path = .ok (.present place (.file content)) := by
  unfold isFile
  constructor
  · intro h
    cases hnode : fs.nodeAt? path with
    | none => simp [hnode] at h
    | some node =>
      obtain ⟨place, hplace⟩ := nodeAt?_eq_some_iff.mp hnode
      cases node with
      | file content => exact ⟨place, content, hplace⟩
      | directory entries => simp [hnode, Node.isFile] at h
      | link target => simp [hnode, Node.isFile] at h
  · rintro ⟨place, content, hplace⟩
    rw [nodeAt?_eq_some_iff.mpr ⟨place, hplace⟩]
    rfl

/-- The path leads to a directory that can be listed. -/
def Listable (fs : FileSystem) (path : String) : Prop :=
  ∃ names, fs.listDirectory path = .ok names

theorem listDirectory_eq {entries : List (String × Node)}
    (h : fs.resolve path = .ok (.present place (.directory entries))) (hlist : fs.canList place = true) :
    fs.listDirectory path = .ok (entries.map Prod.fst) := by
  unfold listDirectory
  rw [h]
  exact if_pos hlist

/-- A directory refuses to be listed in one way. -/
theorem listDirectory_eq_permissionDenied {entries : List (String × Node)}
    (h : fs.resolve path = .ok (.present place (.directory entries))) (hlist : fs.canList place = false) :
    fs.listDirectory path = .error .permissionDenied := by
  unfold listDirectory
  rw [h]
  exact if_neg (by simp [hlist])

/-- Only a directory can be listed. -/
theorem exists_of_listDirectory {names : List String} (h : fs.listDirectory path = .ok names) :
    ∃ place entries, fs.resolve path = .ok (.present place (.directory entries)) ∧
      fs.canList place = true ∧ names = entries.map Prod.fst := by
  unfold listDirectory at h
  split at h
  · next place entries hresolve =>
    split at h
    · next hlist => exact ⟨place, entries, hresolve, hlist, (Except.ok.inj h).symm⟩
    · exact absurd h (by simp)
  all_goals exact absurd h (by simp)

theorem listable_iff :
    fs.Listable path ↔
      ∃ place entries, fs.resolve path = .ok (.present place (.directory entries)) ∧
        fs.canList place = true := by
  constructor
  · rintro ⟨names, hnames⟩
    obtain ⟨place, entries, hresolve, hlist, -⟩ := exists_of_listDirectory hnames
    exact ⟨place, entries, hresolve, hlist⟩
  · rintro ⟨place, entries, hresolve, hlist⟩
    exact ⟨_, listDirectory_eq hresolve hlist⟩

/-- Of a path to a directory it is the directory that decides. -/
theorem listable_iff_canList {entries : List (String × Node)}
    (h : fs.resolve path = .ok (.present place (.directory entries))) :
    fs.Listable path ↔ fs.canList place = true := by
  rw [listable_iff, h]
  simp

theorem Listable.isDirectory (h : fs.Listable path) : fs.isDirectory path = true := by
  obtain ⟨place, entries, hresolve, -⟩ := listable_iff.mp h
  exact isDirectory_iff.mpr ⟨place, entries, hresolve⟩

/-- **Where no directory refuses to be listed**, every directory can be. -/
theorem listable_iff_isDirectory (hclosed : fs.closed = []) :
    fs.Listable path ↔ fs.isDirectory path = true := by
  refine ⟨Listable.isDirectory, fun h => ?_⟩
  obtain ⟨place, entries, hresolve⟩ := isDirectory_iff.mp h
  exact (listable_iff_canList hresolve).mpr (by simp [canList, hclosed])

/-- A directory that cannot be listed says so. -/
theorem listDirectory_eq_error (h : fs.isDirectory path = true) (hlist : ¬ fs.Listable path) :
    fs.listDirectory path = .error .permissionDenied := by
  obtain ⟨place, entries, hresolve⟩ := isDirectory_iff.mp h
  rw [listable_iff_canList hresolve, Bool.not_eq_true] at hlist
  exact listDirectory_eq_permissionDenied hresolve hlist

/-- What a directory is listed to hold are names of entries. -/
theorem isEntryName_of_mem_listDirectory {names : List String} {name : String}
    (h : fs.listDirectory path = .ok names) (hname : name ∈ names) : isEntryName name = true := by
  obtain ⟨_, entries, hresolve, -, rfl⟩ := exists_of_listDirectory h
  obtain ⟨⟨_, child⟩, hmem, rfl⟩ := List.mem_map.mp hname
  exact (wellFormed_of_resolve hresolve).isEntryName_of_mem hmem

/-- No name is listed twice. -/
theorem nodup_of_listDirectory {names : List String} (h : fs.listDirectory path = .ok names) :
    names.Nodup := by
  obtain ⟨_, _, hresolve, -, rfl⟩ := exists_of_listDirectory h
  exact (wellFormed_of_resolve hresolve).nodup_names

/-- A regular file can be read. -/
theorem exists_content_of_isFile (h : fs.isFile path = true) :
    ∃ place content, fs.resolve path = .ok (.present place (.file content)) ∧
      fs.readFile path = .ok content := by
  obtain ⟨place, content, hresolve⟩ := isFile_iff.mp h
  refine ⟨place, content, hresolve, ?_⟩
  unfold readFile
  rw [hresolve]

end QualifierDiscovery.FileSystem
