import QualifierDiscovery.Proofs.BootEntries

/-!
# `Proofs.KitVersions` — the version in the path of a kit

Where no release file states the version of a development kit, it is read off the kit's path: `jdk`, perhaps
a dash, and digits with dots between them, as far as they go, at the leftmost place. Such a name lies within
one component of the path (`namedAt_append_slash_iff`), so the path above the kit's directory is searched
before the name of that directory (`versionInPath?_join`). The latter gives the version exactly if no other
one is named above (`version?_exact`).

## Contents
- **Versions in a text.** `IsVersion`, `NamedAt`, `FirstNamed` — the form of a version, of its name, and the
  first name in a text.
- **What is read as a version.** `leadingVersion?_eq_some_iff`, `namedVersion?_eq_some_iff`,
  `versionInPath?_eq_some_iff` — the reading functions find just that.
- **Versions in a path.** `versionInPath?_append_slash`, `versionInPath?_join`.
- **Exactness.** `versionOf?_of_unstated`, `version?_exact`; `version_of_parent` — a version that is hidden.
-/

namespace QualifierDiscovery.Jdk

/-! ## Versions in a text -/

/-- Digits of any script, at least one. -/
def AreDigits (text : List Char) : Prop :=
  text ≠ [] ∧ ∀ c ∈ text, Text.isDecimalDigit c = true

/-- Groups of a dot and digits, one after the other. -/
inductive AreGroups : List Char → Prop
  | nil : AreGroups []
  | cons {digits groups : List Char} (hdigits : AreDigits digits) (hgroups : AreGroups groups) :
    AreGroups ('.' :: (digits ++ groups))

/-- The text of a version: digits, then groups of a dot and digits. -/
inductive IsVersion : List Char → Prop
  | intro {digits groups : List Char} (hdigits : AreDigits digits) (hgroups : AreGroups groups) :
    IsVersion (digits ++ groups)

/-- The text does not begin with a digit. -/
def NoDigitFirst (text : List Char) : Prop :=
  ∀ c rest, text = c :: rest → Text.isDecimalDigit c = false

/-- A version with this text behind it ends there: neither a digit nor one more group follows. -/
structure EndsVersion (text : List Char) : Prop where
  noDigit : NoDigitFirst text
  noGroup : ∀ rest, text = '.' :: rest → NoDigitFirst rest

/-- A text begins with the name of a version: `jdk`, perhaps a dash, and the version as far as it goes. -/
inductive NamedAt : List Char → List Char → Prop
  | dashed {version rest : List Char} (hversion : IsVersion version) (hrest : EndsVersion rest) :
    NamedAt ('j' :: 'd' :: 'k' :: '-' :: (version ++ rest)) version
  | plain {version rest : List Char} (hversion : IsVersion version) (hrest : EndsVersion rest) :
    NamedAt ('j' :: 'd' :: 'k' :: (version ++ rest)) version

/-- The first version named in a text: the leftmost place where one is named decides. -/
inductive FirstNamed : List Char → List Char → Prop
  | here {text version : List Char} (h : NamedAt text version) : FirstNamed text version
  | later {c : Char} {text version : List Char} (hnot : ∀ other, ¬ NamedAt (c :: text) other)
    (h : FirstNamed text version) : FirstNamed (c :: text) version

variable {text digits groups version rest front after : List Char}

theorem noDigitFirst_nil : NoDigitFirst [] := fun _ _ h => absurd h (by simp)

theorem noDigitFirst_cons_iff {c : Char} :
    NoDigitFirst (c :: rest) ↔ Text.isDecimalDigit c = false := by
  constructor
  · intro h
    exact h c rest rfl
  · rintro hc _ _ h
    rw [← (List.cons.inj h).1]
    exact hc

theorem endsVersion_nil : EndsVersion [] := ⟨noDigitFirst_nil, fun _ h => absurd h (by simp)⟩

/-- Groups begin with a dot. -/
theorem AreGroups.noDigitFirst_append (h : AreGroups groups) (hrest : NoDigitFirst rest) :
    NoDigitFirst (groups ++ rest) := by
  cases h with
  | nil => exact hrest
  | cons => exact noDigitFirst_cons_iff.mpr (by decide)

/-! ## What is read as a version -/

theorem leadingDigits_append (hdigits : ∀ c ∈ digits, Text.isDecimalDigit c = true)
    (hrest : NoDigitFirst rest) : leadingDigits (digits ++ rest) = digits := by
  unfold leadingDigits
  rw [List.takeWhile_append_of_pos hdigits]
  cases rest with
  | nil => simp
  | cons c more => simp [noDigitFirst_cons_iff.mp hrest]

/-- The digits that a text begins with are taken as far as they go. -/
theorem exists_eq_leadingDigits_append (text : List Char) :
    (∀ c ∈ leadingDigits text, Text.isDecimalDigit c = true) ∧
      ∃ rest, NoDigitFirst rest ∧ text = leadingDigits text ++ rest := by
  unfold leadingDigits
  refine ⟨fun c hc => List.all_eq_true.mp List.all_takeWhile c hc,
    text.dropWhile Text.isDecimalDigit, ?_, List.takeWhile_append_dropWhile.symm⟩
  intro c rest hdrop
  have hhead := List.head_dropWhile_not Text.isDecimalDigit (l := text)
    (by rw [hdrop]; exact List.cons_ne_nil _ _)
  simpa [hdrop] using hhead

theorem leadingDigits_eq_nil_iff : leadingDigits text = [] ↔ NoDigitFirst text := by
  unfold leadingDigits
  cases text with
  | nil => exact iff_of_true rfl noDigitFirst_nil
  | cons c rest => simp [noDigitFirst_cons_iff, List.takeWhile_cons]

/-- Groups are read as far as they go, if as many may be read. -/
theorem digitGroups_append {count : Nat} (hgroups : AreGroups groups) (hrest : EndsVersion rest)
    (hcount : groups.length ≤ count) : digitGroups count (groups ++ rest) = groups := by
  induction hgroups generalizing count with
  | nil =>
    cases count with
    | zero => rfl
    | succ count =>
      cases rest with
      | nil => rfl
      | cons c more =>
        unfold digitGroups
        refine if_neg ?_
        rintro ⟨rfl, hdigits⟩
        exact hdigits (leadingDigits_eq_nil_iff.mpr (hrest.noGroup more rfl))
  | @cons digits groups hdigits hgroups ih =>
    obtain ⟨count, rfl⟩ := Nat.exists_eq_add_of_le' (Nat.lt_of_lt_of_le (Nat.succ_pos _) hcount)
    have hlead : leadingDigits (digits ++ (groups ++ rest)) = digits :=
      leadingDigits_append hdigits.2 (hgroups.noDigitFirst_append hrest.noDigit)
    have hlength : groups.length ≤ count := by
      simp only [List.length_cons, List.length_append] at hcount
      omega
    rw [List.cons_append, List.append_assoc, digitGroups, hlead, if_pos ⟨rfl, hdigits.1⟩,
      List.drop_left, ih hlength]
    rfl

/-- What is read as groups are groups, and no more of them follow. By induction over how many may be
    read. -/
theorem exists_eq_digitGroups_append {count : Nat} (hcount : text.length ≤ count)
    (hdigit : NoDigitFirst text) :
    AreGroups (digitGroups count text) ∧
      ∃ rest, EndsVersion rest ∧ text = digitGroups count text ++ rest := by
  induction count generalizing text with
  | zero =>
    obtain rfl := List.length_eq_zero_iff.mp (Nat.le_zero.mp hcount)
    exact ⟨.nil, [], endsVersion_nil, rfl⟩
  | succ count ih =>
    cases text with
    | nil => exact ⟨.nil, [], endsVersion_nil, rfl⟩
    | cons c text =>
      unfold digitGroups
      dsimp only
      by_cases hgroup : c = '.' ∧ leadingDigits text ≠ []
      · obtain ⟨hdigits, rest, hrest, htext⟩ := exists_eq_leadingDigits_append text
        rw [if_pos hgroup]
        obtain ⟨rfl, hsome⟩ := hgroup
        generalize leadingDigits text = digits at hdigits htext hsome ⊢
        subst htext
        have hlength : rest.length ≤ count := by
          simp only [List.length_cons, List.length_append] at hcount
          omega
        obtain ⟨hgroups, others, hends, hothers⟩ := ih hlength hrest
        rw [List.drop_left]
        refine ⟨.cons ⟨hsome, hdigits⟩ hgroups, others, hends, ?_⟩
        rw [List.cons_append, List.cons_append, List.append_assoc, ← hothers]
      · rw [if_neg hgroup]
        refine ⟨.nil, c :: text, ⟨hdigit, ?_⟩, rfl⟩
        rintro more hmore
        obtain ⟨rfl, rfl⟩ := List.cons.inj hmore
        exact leadingDigits_eq_nil_iff.mp (Classical.not_not.mp fun hsome => hgroup ⟨rfl, hsome⟩)

/-- **The version that a text begins with**, as far as it goes. -/
theorem leadingVersion?_eq_some_iff :
    leadingVersion? text = some version ↔
      IsVersion version ∧ ∃ rest, EndsVersion rest ∧ text = version ++ rest := by
  unfold leadingVersion?
  dsimp only
  constructor
  · intro h
    obtain ⟨hdigits, rest, hrest, htext⟩ := exists_eq_leadingDigits_append text
    split at h
    · exact absurd h (by simp)
    · next hsome =>
      rw [List.isEmpty_iff] at hsome
      generalize leadingDigits text = digits at hdigits htext hsome h
      subst htext
      rw [List.drop_left] at h
      have hcount : rest.length ≤ (digits ++ rest).length := by simp
      obtain ⟨hgroups, others, hends, hothers⟩ := exists_eq_digitGroups_append hcount hrest
      rw [← Option.some.inj h]
      refine ⟨.intro ⟨hsome, hdigits⟩ hgroups, others, hends, ?_⟩
      rw [List.append_assoc, ← hothers]
  · rintro ⟨⟨hdigits, hgroups⟩, rest, hrest, rfl⟩
    next digits groups =>
    have hlead : leadingDigits (digits ++ groups ++ rest) = digits := by
      rw [List.append_assoc]
      exact leadingDigits_append hdigits.2 (hgroups.noDigitFirst_append hrest.noDigit)
    have hsome : digits.isEmpty = false := by simpa using hdigits.1
    rw [hlead, hsome, List.append_assoc, List.drop_left,
      digitGroups_append hgroups hrest (by simp only [List.length_append]; omega)]
    rfl

/-- A version begins with a digit, and so not with a dash. -/
theorem IsVersion.exists_cons (h : IsVersion version) :
    ∃ c more, version = c :: more ∧ Text.isDecimalDigit c = true := by
  obtain ⟨hdigits, hgroups⟩ := h
  next digits groups =>
  obtain ⟨c, more, rfl⟩ := List.exists_cons_of_ne_nil hdigits.1
  exact ⟨c, more ++ groups, rfl, hdigits.2 c List.mem_cons_self⟩

theorem namedVersion?_eq_some_iff : namedVersion? text = some version ↔ NamedAt text version := by
  constructor
  · intro h
    unfold namedVersion? at h
    split at h
    · obtain ⟨hversion, rest, hrest, rfl⟩ := leadingVersion?_eq_some_iff.mp h
      exact .dashed hversion hrest
    · obtain ⟨hversion, rest, hrest, rfl⟩ := leadingVersion?_eq_some_iff.mp h
      exact .plain hversion hrest
    · exact absurd h (by simp)
  · intro h
    cases h with
    | dashed hversion hrest => exact leadingVersion?_eq_some_iff.mpr ⟨hversion, _, hrest, rfl⟩
    | @plain _ rest hversion hrest =>
      have hlead := leadingVersion?_eq_some_iff.mpr ⟨hversion, rest, hrest, rfl⟩
      obtain ⟨c, more, rfl, hc⟩ := hversion.exists_cons
      have hdash : c ≠ '-' := by
        rintro rfl
        exact absurd hc (by decide)
      rw [List.cons_append] at hlead ⊢
      rw [namedVersion?.eq_2 _ fun text h => hdash (List.cons.inj h).1]
      exact hlead

/-- **The search finds the first version named.** By induction over the text. -/
theorem versionInPath?_eq_some_iff :
    versionInPath? text = some version ↔ FirstNamed text version := by
  induction text with
  | nil =>
    refine iff_of_false (by simp [versionInPath?]) ?_
    rintro (⟨⟨⟩⟩ | ⟨⟩)
  | cons c text ih =>
    unfold versionInPath?
    cases hnamed : namedVersion? (c :: text) with
    | some found =>
      have hhere := namedVersion?_eq_some_iff.mp hnamed
      constructor
      · intro h
        exact .here (Option.some.inj h ▸ hhere)
      · intro h
        cases h with
        | here h => exact hnamed.symm.trans (namedVersion?_eq_some_iff.mpr h)
        | later hnot => exact absurd hhere (hnot found)
    | none =>
      have hnot : ∀ other, ¬ NamedAt (c :: text) other := fun other h =>
        absurd (hnamed.symm.trans (namedVersion?_eq_some_iff.mpr h)) (by simp)
      constructor
      · exact fun h => .later hnot (ih.mp h)
      · intro h
        cases h with
        | here h => exact absurd h (hnot version)
        | later _ h => exact ih.mpr h

/-! ## Versions in a path -/

theorem noDigitFirst_append_slash_iff :
    NoDigitFirst (front ++ '/' :: after) ↔ NoDigitFirst front := by
  cases front with
  | nil => exact iff_of_true (noDigitFirst_cons_iff.mpr (by decide)) noDigitFirst_nil
  | cons c rest => rw [List.cons_append, noDigitFirst_cons_iff, noDigitFirst_cons_iff]

theorem endsVersion_append_slash_iff : EndsVersion (front ++ '/' :: after) ↔ EndsVersion front := by
  constructor
  · rintro ⟨hdigit, hgroup⟩
    refine ⟨noDigitFirst_append_slash_iff.mp hdigit, ?_⟩
    rintro rest rfl
    exact noDigitFirst_append_slash_iff.mp (hgroup (rest ++ '/' :: after) rfl)
  · rintro ⟨hdigit, hgroup⟩
    refine ⟨noDigitFirst_append_slash_iff.mpr hdigit, fun rest hrest => ?_⟩
    cases front with
    | nil => exact absurd (List.cons.inj hrest).1 (by decide)
    | cons c more =>
      obtain ⟨rfl, rfl⟩ := List.cons.inj hrest
      exact noDigitFirst_append_slash_iff.mpr (hgroup more rfl)

/-- A version is made of digits and dots. -/
theorem IsVersion.slash_notMem (h : IsVersion version) : '/' ∉ version := by
  obtain ⟨hdigits, hgroups⟩ := h
  next digits groups =>
  have hnot : ∀ {digits : List Char}, AreDigits digits → '/' ∉ digits := fun hdigits hslash =>
    absurd (hdigits.2 '/' hslash) (by decide)
  rw [List.mem_append, not_or]
  refine ⟨hnot hdigits, ?_⟩
  clear hdigits
  induction hgroups with
  | nil => exact List.not_mem_nil
  | cons hdigits _ ih => simp [hnot hdigits, ih]

/-- What has no slash and begins a text stands before the first slash of the text. -/
theorem exists_of_append_slash_eq {named : List Char} (hslash : '/' ∉ named)
    (h : front ++ '/' :: after = named ++ rest) :
    ∃ between, front = named ++ between ∧ rest = between ++ '/' :: after := by
  rcases List.append_eq_append_iff.mp h with ⟨more, hnamed, hmore⟩ | ⟨between, hfront, hrest⟩
  · cases more with
    | nil => exact ⟨[], by simpa using hnamed.symm, by simpa using hmore.symm⟩
    | cons c more =>
      rw [← (List.cons.inj hmore).1] at hnamed
      exact absurd (by simp [hnamed]) hslash
  · exact ⟨between, hfront, hrest⟩

/-- **A version is named before a slash or behind it**, never across. -/
theorem namedAt_append_slash_iff : NamedAt (front ++ '/' :: after) version ↔ NamedAt front version := by
  constructor
  · intro h
    generalize htext : front ++ '/' :: after = text at h
    cases h with
    | dashed hversion hrest =>
      have hslash : '/' ∉ 'j' :: 'd' :: 'k' :: '-' :: version := by simp [hversion.slash_notMem]
      obtain ⟨between, rfl, rfl⟩ := exists_of_append_slash_eq hslash htext
      exact .dashed hversion (endsVersion_append_slash_iff.mp hrest)
    | plain hversion hrest =>
      have hslash : '/' ∉ 'j' :: 'd' :: 'k' :: version := by simp [hversion.slash_notMem]
      obtain ⟨between, rfl, rfl⟩ := exists_of_append_slash_eq hslash htext
      exact .plain hversion (endsVersion_append_slash_iff.mp hrest)
  · intro h
    cases h with
    | dashed hversion hrest =>
      simp only [List.cons_append, List.append_assoc]
      exact .dashed hversion (endsVersion_append_slash_iff.mpr hrest)
    | plain hversion hrest =>
      simp only [List.cons_append, List.append_assoc]
      exact .plain hversion (endsVersion_append_slash_iff.mpr hrest)

theorem versionInPath?_append_slash (front after : List Char) :
    versionInPath? (front ++ '/' :: after) = (versionInPath? front).or (versionInPath? after) := by
  have hnamed : ∀ front, namedVersion? (front ++ '/' :: after) = namedVersion? front := by
    intro front
    ext version
    rw [namedVersion?_eq_some_iff, namedVersion?_eq_some_iff, namedAt_append_slash_iff]
  induction front with
  | nil =>
    have hslash : namedVersion? ('/' :: after) = none := hnamed []
    rw [List.nil_append, versionInPath?.eq_2, hslash]
    rfl
  | cons c front ih =>
    have hfront := hnamed (c :: front)
    rw [List.cons_append] at hfront ⊢
    rw [versionInPath?, versionInPath?, hfront, ih]
    cases namedVersion? (c :: front) <;> rfl

/-- **The version in a path below another one** is the first of the two. -/
theorem versionInPath?_join {parent name : String} (hname : '/' ∉ name.toList) :
    versionInPath? (Path.join parent name).toList =
      (versionInPath? parent.toList).or (versionInPath? name.toList) := by
  by_cases hempty : parent = ""
  · subst hempty
    rw [Path.join, Path.isAbsolute_eq_false hname]
    rfl
  · rw [Path.join_eq hempty (Path.isAbsolute_eq_false hname)]
    by_cases hslash : Text.endsWith "/" parent = true
    · obtain ⟨front, rfl⟩ := Path.endsWith_slash_iff.mp hslash
      have htext : (front ++ "/" ++ name).toList = front.toList ++ '/' :: name.toList := by
        simp [String.toList_append]
      have hparent : (front ++ "/").toList = front.toList ++ '/' :: [] := by
        simp [String.toList_append]
      rw [if_pos hslash, htext, hparent, versionInPath?_append_slash, versionInPath?_append_slash]
      simp [versionInPath?]
    · have htext : (parent ++ "/" ++ name).toList = parent.toList ++ '/' :: name.toList := by
        simp [String.toList_append]
      rw [if_neg hslash, htext, versionInPath?_append_slash]

/-! ## Exactness -/

/-- A release file without a line that states a version leaves it to the path. -/
theorem versionOf?_of_unstated {fs : FileSystem} {root : String}
    (h : ∀ release, fs.readText (Path.join root "release") = .ok release →
      ∀ line ∈ Text.lines release, ∀ stated, line ≠ "JAVA_VERSION=" ++ stated) :
    versionOf? fs root = (versionInPath? root.toList).map String.ofList := by
  unfold versionOf?
  cases hrelease : fs.readText (Path.join root "release") with
  | error cause => rfl
  | ok release =>
    have hstated : statedVersion? release = none := by
      unfold statedVersion?
      rw [List.findSome?_eq_none_iff]
      intro line hline
      rw [Option.map_eq_none_iff, Option.eq_none_iff_forall_ne_some]
      intro stated hstarts
      exact h release hrelease line hline stated (Text.stripStart?_eq_some_iff.mp hstarts)
    dsimp only
    rw [hstated]

/-- A directory's own name names its version. -/
theorem versionInPath?_name {version name : String} (hversion : IsVersion version.toList)
    (hname : name = "jdk-" ++ version ∨ name = "jdk" ++ version) :
    '/' ∉ name.toList ∧ versionInPath? name.toList = some version.toList := by
  rw [versionInPath?_eq_some_iff]
  rcases hname with rfl | rfl
  · have hchars : ("jdk-" ++ version).toList = 'j' :: 'd' :: 'k' :: '-' :: (version.toList ++ []) := by
      simp [String.toList_append]
    rw [hchars]
    exact ⟨by simp [hversion.slash_notMem], .here (.dashed hversion endsVersion_nil)⟩
  · have hchars : ("jdk" ++ version).toList = 'j' :: 'd' :: 'k' :: (version.toList ++ []) := by
      simp [String.toList_append]
    rw [hchars]
    exact ⟨by simp [hversion.slash_notMem], .here (.plain hversion endsVersion_nil)⟩

/-- **A kit's own directory names its version only if no directory above names one first.** Without a
    stated version, that of the kit is the first one named in the path above its directory; if none is
    named there, it is the one that the directory is called after. So it is the latter exactly if
    whatever is named above is the same. -/
theorem version?_exact {fs : FileSystem} {parent version name : String} {jdk : Jdk}
    (hversion : IsVersion version.toList)
    (hname : name = "jdk-" ++ version ∨ name = "jdk" ++ version)
    (hkit : ofRoot? fs (Path.join parent name) = some jdk)
    (hunstated : ∀ release, fs.readText (Path.join (Path.join parent name) "release") = .ok release →
      ∀ line ∈ Text.lines release, ∀ stated, line ≠ "JAVA_VERSION=" ++ stated) :
    (∀ named, FirstNamed parent.toList named → jdk.version? = some (String.ofList named)) ∧
      ((∀ named, ¬ FirstNamed parent.toList named) → jdk.version? = some version) ∧
      (jdk.version? = some version ↔
        ∀ named, FirstNamed parent.toList named → named = version.toList) := by
  obtain ⟨hslash, hown⟩ := versionInPath?_name hversion hname
  have hpath : jdk.version? =
      ((versionInPath? parent.toList).or (some version.toList)).map String.ofList := by
    obtain ⟨-, -, -, hread⟩ := ofRoot?_eq_some_iff.mp hkit
    rw [hread, versionOf?_of_unstated hunstated, versionInPath?_join hslash, hown]
  simp only [← versionInPath?_eq_some_iff]
  rw [hpath]
  cases versionInPath? parent.toList with
  | none => simp
  | some named =>
    refine ⟨?_, ?_, ?_⟩
    · rintro _ ⟨⟩
      rfl
    · exact fun hnone => absurd rfl (hnone named)
    · show some (String.ofList named) = some version ↔ _
      constructor
      · rintro h _ ⟨⟩
        rw [← Option.some.inj h, String.toList_ofList]
      · intro h
        rw [h named rfl, String.ofList_toList]

/-- A kit in a directory of the name `jdk-17.0.1` below another one. -/
def kitBelow (parent : String) (h : isEntryName parent = true) : FileSystem where
  root := .directory [(parent, .directory [("jdk-17.0.1", .directory [("lib", .directory
    [("modules", .file .empty)])])])]
  workingPlace := []
  wellFormed := by
    simp only [Node.WellFormed, EntriesWellFormed, h, List.not_mem_nil, false_implies,
      implies_true, and_true]
    decide

theorem isVersion_17_0_1 : IsVersion "17.0.1".toList := by
  have hone : AreDigits ['1'] := ⟨by decide, List.all_eq_true.mp rfl⟩
  have hzero : AreDigits ['0'] := ⟨by decide, List.all_eq_true.mp rfl⟩
  have hseventeen : AreDigits ['1', '7'] := ⟨by decide, List.all_eq_true.mp rfl⟩
  exact .intro hseventeen (.cons hzero (.cons hone .nil))

/-- Where no version is named above, the kit's own directory names it. -/
theorem version?_exact_kitBelow :
    ∃ jdk, ofRoot? (kitBelow "jdks" (by decide)) (Path.join "/jdks" "jdk-17.0.1") = some jdk ∧
      jdk.version? = some "17.0.1" := by
  obtain ⟨jdk, hjdk⟩ : ∃ jdk, ofRoot? (kitBelow "jdks" (by decide)) (Path.join "/jdks" "jdk-17.0.1") =
      some jdk := ⟨_, rfl⟩
  have hrelease : (kitBelow "jdks" (by decide)).readText
      (Path.join (Path.join "/jdks" "jdk-17.0.1") "release") = .error .notFound := by rfl
  obtain ⟨-, hown, -⟩ := version?_exact isVersion_17_0_1 (Or.inl rfl) hjdk fun release h =>
    absurd (hrelease.symm.trans h) (by simp)
  refine ⟨jdk, hjdk, hown fun named hnamed => ?_⟩
  have hnone : versionInPath? "/jdks".toList = none := by decide
  rw [← versionInPath?_eq_some_iff, hnone] at hnamed
  exact absurd hnamed (by simp)

/-- A directory above that names another version hides the one that the kit's directory names. -/
theorem version_of_parent :
    IsVersion "17.0.1".toList ∧
      (kitBelow "jdk-8-builds" (by decide)).readText
        (Path.join (Path.join "/jdk-8-builds" ("jdk-" ++ "17.0.1")) "release") = .error .notFound ∧
      ∃ jdk, ofRoot? (kitBelow "jdk-8-builds" (by decide))
          (Path.join "/jdk-8-builds" ("jdk-" ++ "17.0.1")) = some jdk ∧
        jdk.version? = some "8" ∧ jdk.version? ≠ some "17.0.1" :=
  ⟨isVersion_17_0_1, by rfl, _, rfl, by decide +kernel, by decide +kernel⟩

end QualifierDiscovery.Jdk
