import QualifierDiscovery.Proofs.Agreement
import QualifierDiscovery.Proofs.Checkers

/-!
# `Proofs.CommandLine.CheckerOption` — what the value of `--checker` decides

Two command lines that differ in the values of `--checker` only are read in step: what has been read of them
differs in the stored value, or in the one that still waits to be stored, and in nothing else. So they are
refused alike, or give commands that differ in the checker's name only.

## Contents
- **Arguments.** `AlikeArguments` — lists of arguments that differ in values of `--checker` only.
- **Drafts.** `ArgumentDraft.Alike`, and that each step of the reading keeps it: `store_alike`,
  `settle_alike`, `readArgument_alike`, `readLong_alike`.
- **Runs.** `read_alike` for all arguments, `finish_alike` for the command that they make;
  `checkerOption_exact` — for which values of the option it only affects messages.
-/

namespace QualifierDiscovery

/-! ## Arguments -/

/-- A word that an option before it takes as its value: it does not look like an option. -/
def IsPlain (word : String) : Prop := Text.startsWith "-" word = false ∨ word = "-"

/-- Arguments that differ at most in values of `--checker`, and there in nothing before the last dot. -/
inductive AlikeArguments : List String → List String → Prop
  | nil : AlikeArguments [] []
  /-- After two dashes by themselves there are no more options. -/
  | dashes (words : List String) : AlikeArguments ("--" :: words) ("--" :: words)
  | word {words words' : List String} (word : String) (hword : word ≠ "--") :
    AlikeArguments words words' → AlikeArguments (word :: words) (word :: words')
  | separate {words words' : List String} {value value' : String} (hvalue : IsPlain value)
    (hvalue' : IsPlain value') (hpackage : Name.package? value' = Name.package? value) :
    AlikeArguments words words' →
      AlikeArguments ("--checker" :: value :: words) ("--checker" :: value' :: words')
  | attached {words words' : List String} {value value' : String}
    (hpackage : Name.package? value' = Name.package? value) :
    AlikeArguments words words' →
      AlikeArguments (("--checker=" ++ value) :: words) (("--checker=" ++ value') :: words')

/-! ## Drafts -/

/-- What waits to be stored is the same, or two alike values of `--checker`. -/
inductive AlikePending : Option (Slot × Option String) → Option (Slot × Option String) → Prop
  | same (pending : Option (Slot × Option String)) : AlikePending pending pending
  | checker {value value' : String} (hpackage : Name.package? value' = Name.package? value) :
    AlikePending (some (.checker, some value)) (some (.checker, some value'))

namespace ArgumentDraft

/-- Drafts that differ at most in values of `--checker`, and there in nothing before the last dot. -/
inductive Alike (draft : ArgumentDraft) : ArgumentDraft → Prop
  | intro (checker : Option String) (pending : Option (Slot × Option String))
    (hchecker : checker.map Name.package? = draft.checker.map Name.package?)
    (hpending : AlikePending draft.pending pending) :
    Alike draft { draft with checker := checker, pending := pending }

variable {subcommand : Subcommand} {draft draft' : ArgumentDraft}

theorem Alike.withPending (h : draft.Alike draft') {waiting waiting' : Option (Slot × Option String)}
    (hwaiting : AlikePending waiting waiting') :
    Alike { draft with pending := waiting } { draft' with pending := waiting' } := by
  obtain ⟨checker, pending, hchecker, -⟩ := h
  exact .intro _ _ hchecker hwaiting

theorem once_alike {old old' : Option String} {value value' : String}
    (hold : old'.map Name.package? = old.map Name.package?)
    (hvalue : Name.package? value' = Name.package? value) :
    Related (fun stored stored' => stored'.map Name.package? = stored.map Name.package?)
      (once old value) (once old' value') := by
  cases old with
  | none =>
    obtain rfl : old' = none := Option.map_eq_none_iff.mp hold
    exact congrArg some hvalue
  | some stored =>
    obtain ⟨stored', rfl, -⟩ := Option.map_eq_some_iff.mp hold
    rfl

/-- Storing a value keeps drafts alike: the same value in any slot, or alike ones in the checker's. -/
theorem store_alike (h : draft.Alike draft') {slot : Slot} {value value' : String}
    (hvalue : value' = value ∨ slot = .checker ∧ Name.package? value' = Name.package? value) :
    Related Alike (draft.store subcommand slot value) (draft'.store subcommand slot value') := by
  obtain ⟨checker, pending, hchecker, hpending⟩ := h
  by_cases hslot : slot = .checker
  · subst hslot
    have hpackage : Name.package? value' = Name.package? value := by
      rcases hvalue with rfl | ⟨-, hpackage⟩
      · rfl
      · exact hpackage
    exact (once_alike hchecker hpackage).bind fun _ _ hstored => .intro _ _ hstored hpending
  · obtain rfl : value' = value := hvalue.resolve_right fun h => hslot h.1
    -- the other slots do not look at the checker, nor at what waits
    cases slot with
    | checker => exact absurd rfl hslot
    | namespaceName => exact Related.bind_same _ fun _ => .intro _ _ hchecker hpending
    | manifest => exact Related.bind_same _ fun _ => .intro _ _ hchecker hpending
    | path => exact .intro _ _ hchecker hpending
    | loaderUrl => exact .intro _ _ hchecker hpending
    | config =>
      exact Related.bind_same _ fun _ => Related.bind_same _ fun _ => .intro _ _ hchecker hpending
    | argument =>
      unfold store
      dsimp only
      by_cases hdirectory : subcommand = .externalDirectory
      · rw [if_pos hdirectory, if_pos hdirectory]
        exact Related.bind_same _ fun _ => .intro _ _ hchecker hpending
      · rw [if_neg hdirectory, if_neg hdirectory]
        exact .intro _ _ hchecker hpending

theorem settle_alike (h : draft.Alike draft') :
    Related Alike (draft.settle subcommand) (draft'.settle subcommand) := by
  have hnone := h.withPending (.same none)
  obtain ⟨checker, pending, hchecker, hpending⟩ := h
  unfold settle
  generalize hdraft : draft.pending = waiting at hpending
  cases hpending with
  | same =>
    cases pending with
    | none => exact .intro _ _ hchecker (hdraft ▸ .same none)
    | some slot =>
      obtain ⟨slot, value⟩ := slot
      cases value with
      | none => rfl
      | some value => exact store_alike hnone (Or.inl rfl)
  | checker hpackage => exact store_alike hnone (Or.inr ⟨rfl, hpackage⟩)

theorem readArgument_alike (h : draft.Alike draft') (word : String) :
    Related Alike (draft.readArgument subcommand word) (draft'.readArgument subcommand word) := by
  have hsettle := @settle_alike subcommand _ _ h
  obtain ⟨checker, pending, hchecker, hpending⟩ := h
  unfold readArgument
  dsimp only
  by_cases hrefused : subcommand = .bundled ∨ draft.argumentGiven
  · rw [if_pos hrefused, if_pos hrefused]
    rfl
  · rw [if_neg hrefused, if_neg hrefused]
    refine hsettle.bind fun settled settled' halike => ?_
    obtain ⟨checker', pending', hchecker', -⟩ := halike
    exact .intro _ _ hchecker' (.same _)

theorem readLong_alike (h : draft.Alike draft') (word : String) :
    Related Alike (draft.readLong subcommand word) (draft'.readLong subcommand word) := by
  have hsettle := @settle_alike subcommand _ _ h
  unfold readLong
  obtain ⟨name, attached⟩ := splitOption word
  dsimp only
  by_cases hhelp : name = "help"
  · rw [if_pos hhelp, if_pos hhelp]
    by_cases hvalue : attached.isSome = true
    · rw [if_pos hvalue, if_pos hvalue]
      rfl
    · rw [if_neg hvalue, if_neg hvalue]
      exact hsettle.bind fun _ _ _ => rfl
  · rw [if_neg hhelp, if_neg hhelp]
    cases Text.valueAt? name Slot.options with
    | none => rfl
    | some slot =>
      refine hsettle.bind fun settled settled' halike => ?_
      cases attached with
      | some value => exact store_alike halike (Or.inl rfl)
      | none => exact halike.withPending (.same _)

theorem readShort_alike (h : draft.Alike draft') (word : String) :
    Related Alike (draft.readShort subcommand word) (draft'.readShort subcommand word) := by
  unfold readShort
  by_cases hhelp : Text.startsWith "-h" word = true
  · rw [if_pos hhelp, if_pos hhelp]
    exact (settle_alike h).bind fun _ _ _ => rfl
  · rw [if_neg hhelp, if_neg hhelp]
    rfl

/-- The option with its value attached is read as that value in the checker's slot. -/
theorem readLong_attached (draft : ArgumentDraft) (value : String) :
    draft.readLong subcommand ("--checker=" ++ value) =
      draft.settle subcommand >>= fun settled => settled.store subcommand .checker value := by
  have hchars : ("--checker=" ++ value).toList.drop 2 = "checker".toList ++ '=' :: value.toList := by
    rw [String.toList_append]
    rfl
  have hname : ∀ c ∈ "checker".toList, (c != '=') = true := List.all_eq_true.mp rfl
  have hsplit : splitOption ("--checker=" ++ value) = ("checker", some value) := by
    unfold splitOption
    rw [hchars]
    dsimp only
    rw [List.takeWhile_append_of_pos hname, List.dropWhile_append_of_pos hname]
    simp
  unfold readLong
  rw [hsplit]
  rfl

/-- The option by itself waits for its value. -/
theorem readLong_separate (draft : ArgumentDraft) :
    draft.readLong subcommand "--checker" =
      draft.settle subcommand >>= fun settled =>
        .ok { settled with pending := some (.checker, none) } := by
  have hsplit : splitOption "--checker" = ("checker", none) := by decide
  unfold readLong
  rw [hsplit]
  rfl

/-! ## Runs -/

theorem read_alike_after_dashes (words : List String) (h : draft.Alike draft') :
    Related Alike (read subcommand true draft words) (read subcommand true draft' words) := by
  induction words generalizing draft draft' with
  | nil => exact settle_alike h
  | cons word words ih => exact (readArgument_alike h word).bind fun _ _ halike => ih halike

theorem not_option_of_isPlain {word : String} (h : IsPlain word) :
    word ≠ "--" ∧ Text.startsWith "--" word = false ∧
      (Text.startsWith "-" word && word != "-") = false := by
  rcases h with hplain | rfl
  · have hlong : Text.startsWith "--" word = false := by
      rw [Bool.eq_false_iff]
      intro hdashes
      obtain ⟨rest, rfl⟩ := Text.startsWith_iff.mp hdashes
      have hdash : Text.startsWith "-" ("--" ++ rest) = true :=
        Text.startsWith_iff.mpr ⟨"-" ++ rest, by rw [← String.append_assoc]; rfl⟩
      rw [hdash] at hplain
      exact absurd hplain (by decide)
    refine ⟨?_, hlong, by rw [hplain]; rfl⟩
    rintro rfl
    exact absurd hplain (by decide)
  · decide

theorem read_separate (draft : ArgumentDraft) {value : String} (hvalue : IsPlain value)
    (words : List String) :
    read subcommand false draft ("--checker" :: value :: words) =
      draft.settle subcommand >>= fun settled =>
        read subcommand false { settled with pending := some (.checker, some value) } words := by
  obtain ⟨hdashes, hlong, hshort⟩ := not_option_of_isPlain hvalue
  rw [read, if_neg (by decide), if_pos (by decide), readLong_separate, bind_assoc]
  congr 1
  funext settled
  show read subcommand false { settled with pending := some (.checker, none) } (value :: words) = _
  rw [read, if_neg hdashes, hlong, hshort]
  rfl

theorem read_attached (draft : ArgumentDraft) (value : String) (words : List String) :
    read subcommand false draft (("--checker=" ++ value) :: words) =
      draft.settle subcommand >>= fun settled =>
        settled.store subcommand .checker value >>= fun stored =>
          read subcommand false stored words := by
  have hword : "--checker=" ++ value = "--" ++ ("checker=" ++ value) := by
    rw [← String.append_assoc]
    rfl
  have hlong : Text.startsWith "--" ("--checker=" ++ value) = true :=
    Text.startsWith_iff.mpr ⟨_, hword⟩
  have hne : "--checker=" ++ value ≠ "--" := by
    intro h
    have hlength := congrArg String.length h
    simp only [String.length_append, show "--checker=".length = 10 from rfl,
      show "--".length = 2 from rfl] at hlength
    omega
  rw [read, if_neg hne, if_pos hlong, readLong_attached, bind_assoc]

/-- **Arguments that differ only in values of `--checker` are read in step.** By induction over the
    arguments; what has been read of them stays alike. -/
theorem read_alike {words words' : List String} (hwords : AlikeArguments words words')
    (h : draft.Alike draft') :
    Related Alike (read subcommand false draft words) (read subcommand false draft' words') := by
  induction hwords generalizing draft draft' with
  | nil => exact settle_alike h
  | dashes words =>
    unfold read
    rw [if_pos rfl, if_pos rfl]
    exact read_alike_after_dashes words h
  | word word hword _ ih =>
    unfold read
    rw [if_neg hword, if_neg hword]
    by_cases hlong : Text.startsWith "--" word = true
    · rw [if_pos hlong, if_pos hlong]
      exact (readLong_alike h word).bind fun _ _ halike => ih halike
    · rw [if_neg hlong, if_neg hlong]
      by_cases hshort : (Text.startsWith "-" word && word != "-") = true
      · rw [if_pos hshort, if_pos hshort]
        exact (readShort_alike h word).bind fun _ _ halike => ih halike
      · rw [if_neg hshort, if_neg hshort]
        have hargument := (@readArgument_alike subcommand _ _ h word).bind fun _ _ halike =>
          ih halike
        have hwaiting := fun pending => h.withPending (.same pending)
        -- the word is the value of a slot that waits for one, and otherwise an argument
        obtain ⟨checker, pending, hchecker, hpending⟩ := h
        dsimp only
        generalize hdraft : draft.pending = waiting at hpending ⊢
        cases hpending with
        | same =>
          cases pending with
          | none => exact hargument
          | some slot =>
            obtain ⟨slot, value⟩ := slot
            cases value with
            | none => exact ih (hwaiting _)
            | some value => exact hargument
        | checker => exact hargument
  | separate hvalue hvalue' hpackage _ ih =>
    rw [read_separate draft hvalue, read_separate draft' hvalue']
    exact (settle_alike h).bind fun _ _ halike => ih (halike.withPending (.checker hpackage))
  | attached hpackage _ ih =>
    rw [read_attached, read_attached]
    refine (settle_alike h).bind fun settled settled' halike => ?_
    exact (store_alike halike (Or.inr ⟨rfl, hpackage⟩)).bind fun _ _ hstored => ih hstored

theorem finish_alike (h : draft.Alike draft') :
    Related Command.AlikeButChecker (draft.finish subcommand) (draft'.finish subcommand) := by
  obtain ⟨checker, pending, hchecker, -⟩ := h
  have hpackage : Name.package? (checker.getD "Checker") =
      Name.package? (draft.checker.getD "Checker") := by
    have hdefault : ∀ value : Option String, Name.package? (value.getD "Checker") =
        (value.map Name.package?).getD (Name.package? "Checker") :=
      fun value => (Option.getD_map Name.package? "Checker" value).symm
    rw [hdefault, hdefault, hchecker]
  unfold finish
  dsimp only
  refine Related.bind_same _ fun namespaceName => ?_
  by_cases hmanifests : draft.manifests.isEmpty = true
  · rw [if_pos hmanifests, if_pos hmanifests]
    rfl
  · rw [if_neg hmanifests, if_neg hmanifests]
    cases subcommand with
    | bundled => exact ⟨rfl, rfl, hpackage⟩
    | externalDirectory => exact Related.bind_same _ fun _ => ⟨rfl, rfl, hpackage⟩
    | externalClass => exact Related.bind_same _ fun _ => ⟨rfl, rfl, hpackage⟩

end ArgumentDraft

/-- The name of a subcommand begins its command line, and the rest of it are the subcommand's arguments. -/
theorem Command.parse_cons {name : String} {subcommand : Subcommand}
    (hname : Text.valueAt? name Subcommand.names = some subcommand) (words : List String) :
    Command.parse (name :: words) =
      ArgumentDraft.read subcommand false {} words >>= fun draft => draft.finish subcommand := by
  have hentry : (name, subcommand) ∈ Subcommand.names := Text.mem_of_valueAt?_eq_some hname
  simp only [Subcommand.names, List.mem_cons, Prod.mk.injEq, List.not_mem_nil, or_false] at hentry
  rcases hentry with ⟨rfl, rfl⟩ | ⟨rfl, rfl⟩ | ⟨rfl, rfl⟩ <;> rfl

/-- Command lines that differ only in values of `--checker` are refused alike, or give commands that differ
    only in the checker's name. -/
theorem Command.parse_alike {name : String} {subcommand : Subcommand} {words words' : List String}
    (hname : Text.valueAt? name Subcommand.names = some subcommand)
    (hwords : AlikeArguments words words') :
    Related Command.AlikeButChecker (Command.parse (name :: words))
      (Command.parse (name :: words')) := by
  rw [parse_cons hname, parse_cons hname]
  exact (ArgumentDraft.read_alike hwords (.intro none none rfl (.same none))).bind
    fun _ _ halike => ArgumentDraft.finish_alike halike

/-- Their runs end alike too, and what they print differs at most in the name before a message. -/
theorem runArguments_alike {name : String} {subcommand : Subcommand} {words words' : List String}
    (hname : Text.valueAt? name Subcommand.names = some subcommand)
    (hwords : AlikeArguments words words') (env : Variables) (fs : FileSystem) :
    Related
      (fun outcome outcome' => ∃ command command', Command.parse (name :: words) = .ok command ∧
        Command.parse (name :: words') = .ok command' ∧ command.AlikeButChecker command' ∧
        outcome.SameButChecker (Name.simple command.options.checker)
          (Name.simple command'.options.checker) outcome')
      (runArguments (name :: words) env fs) (runArguments (name :: words') env fs) := by
  have hparse := Command.parse_alike hname hwords
  unfold runArguments
  generalize Command.parse (name :: words) = read at hparse ⊢
  generalize Command.parse (name :: words') = read' at hparse ⊢
  cases read with
  | error usage =>
    cases read' with
    | error usage' => exact hparse
    | ok command' => exact hparse.elim
  | ok command =>
    cases read' with
    | error usage' => exact hparse.elim
    | ok command' => exact ⟨command, command', rfl, rfl, hparse, Command.run_alike hparse env fs⟩

/-- **What the value of `--checker` decides.** The checker is named as the option says, in the namespace that
    its own option gives, exactly if the value has no dot; and two values lead to the same package exactly
    if the same stands before their last dots, as it does if they have none. Two command lines of a
    subcommand that differ only in such values are refused alike, or give commands that differ only in the
    checker's name. Their runs end with the same status and print the same names, and what they print of
    errors differs at most in the name before a message. -/
theorem checkerOption_exact {name : String} {subcommand : Subcommand} {words words' : List String}
    (hname : Text.valueAt? name Subcommand.names = some subcommand)
    (hwords : AlikeArguments words words') :
    (∀ options : SharedOptions,
      Checker.ofTypeName options.loaderOptions.checker =
        ⟨options.checker, options.namespaceName⟩ ↔ '.' ∉ options.checker.toList) ∧
    (∀ before value value' suffix,
      Package.nameFor (Checker.ofTypeName (before ++ "." ++ value')).namespaceName suffix =
          Package.nameFor (Checker.ofTypeName (before ++ "." ++ value)).namespaceName suffix ↔
        Name.package? value' = Name.package? value) ∧
    ∀ env fs, Related
      (fun outcome outcome' => ∃ command command', Command.parse (name :: words) = .ok command ∧
        Command.parse (name :: words') = .ok command' ∧ command.AlikeButChecker command' ∧
        outcome.SameButChecker (Name.simple command.options.checker)
          (Name.simple command'.options.checker) outcome')
      (runArguments (name :: words) env fs) (runArguments (name :: words') env fs) :=
  ⟨fun _ => SharedOptions.ofTypeName_eq_iff, fun _ _ _ _ => Checker.nameFor_ofTypeName_eq_iff,
    runArguments_alike hname hwords⟩

/-- A manifest of one annotation type, and the compiled class in the qualifier package of the namespace
    `demo`. -/
def demoFiles : FileSystem where
  root := .directory
    [("cp", .directory [("demo", .directory [("qual", .directory [("A.class", .file .empty)])])]),
      ("m.json", .file
        (("\x7b\"descriptors\":[\x7b\"name\":\"demo.qual.A\",\"kind\":\"annotation\"," ++
          "\"target\":[\"TYPE_USE\"]\x7d]\x7d").toUTF8))]
  workingPlace := []
  wellFormed := by
    simp only [Node.WellFormed, EntriesWellFormed, List.mem_cons, List.not_mem_nil, or_false,
      forall_eq, false_implies, implies_true, and_true]
    decide

/-- The command line that lists the bundled qualifiers of the namespace `demo`, for a checker of a name. -/
def demoArguments (checker : String) : List String :=
  ["bundled", "--namespace", "demo", "--checker", checker, "--manifest", "/m.json", "--path", "/cp"]

/-- With a dot in its value the option changes what is printed: the namespace is no longer the one that was
    given. -/
theorem checkerOption_changes_output :
    runArguments (demoArguments "C") ⟨none, none, none, none⟩ demoFiles =
        .ok ⟨0, ["demo.qual.A"], []⟩ ∧
      runArguments (demoArguments "sub.C") ⟨none, none, none, none⟩ demoFiles =
        .ok ⟨0, [], []⟩ := by
  decide +kernel

theorem checkerOption_exact_demo :
    AlikeArguments (demoArguments "C").tail (demoArguments "D").tail ∧
      Related
        (fun outcome outcome' : Outcome => ∃ command command',
          Command.parse (demoArguments "C") = .ok command ∧
          Command.parse (demoArguments "D") = .ok command' ∧ command.AlikeButChecker command' ∧
          outcome.SameButChecker (Name.simple command.options.checker)
            (Name.simple command'.options.checker) outcome')
        (.ok ⟨0, ["demo.qual.A"], []⟩)
        (runArguments (demoArguments "D") ⟨none, none, none, none⟩ demoFiles) := by
  have hwords : AlikeArguments (demoArguments "C").tail (demoArguments "D").tail :=
    .word "--namespace" (by decide) (.word "demo" (by decide)
      (.separate (Or.inl (by decide)) (Or.inl (by decide)) (by decide)
        (.word "--manifest" (by decide) (.word "/m.json" (by decide)
          (.word "--path" (by decide) (.word "/cp" (by decide) .nil))))))
  have hlisted : runArguments (demoArguments "C") ⟨none, none, none, none⟩ demoFiles =
      .ok ⟨0, ["demo.qual.A"], []⟩ := by
    decide +kernel
  obtain ⟨-, -, hruns⟩ := @checkerOption_exact "bundled" .bundled _ _ (by decide) hwords
  have hrelated := hruns ⟨none, none, none, none⟩ demoFiles
  rw [show "bundled" :: (demoArguments "C").tail = demoArguments "C" from rfl, hlisted] at hrelated
  exact ⟨hwords, hrelated⟩

end QualifierDiscovery
