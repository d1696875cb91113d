import QualifierDiscovery.Proofs.FirstOccurrences
import QualifierDiscovery.Proofs.Verdicts

/-!
# `Proofs.Acceptance` — which candidates a pass accepts

A pass over candidates judges each of them against the qualifiers accepted before. What it comes to
does not depend on that set: a member has already passed every step for the same name, so the short
way past synthesis and support leads where the long one would.

## Contents
- **Verdicts.** `Qualifies` and `FailsSynthesis` say what the steps of a validation ask of a candidate where
  nothing is accepted yet; `validate_empty_eq_accepted_iff` and `validate_empty_eq_error_iff` read a
  verdict against no qualifiers off them.
- **The short way.** `Settled` sets hold qualifiers only; against such a set the verdicts are those
  against the empty one (`validate_eq_validate_empty`).
- **Passes.** `acceptAll_eq` gives the outcome of a pass as a whole: the failure of the first
  candidate that stops it, or else the set with every qualifier among the candidates.
- **Order.** Of candidates in increasing order all qualifiers are kept, each where it comes
  (`members_insertAll_accepted`), and the smallest that fails stops the pass
  (`exists_first_of_findSome?_abort?`). Of candidates in any order each qualifier is kept once, where it
  first comes (`names_insertAll_accepted`), and the first that fails stops the pass
  (`findSome?_abort?_eq_some_iff`).
-/

namespace QualifierDiscovery

/-! ## What the steps of a validation ask -/

/-- A resolver that gives for a name only descriptors of that name. -/
def Resolver.Keyed (resolve : Resolver) : Prop :=
  ∀ name d, resolve name = some d → d.name = name

namespace Validator

variable {v : Validator} {name : String} {d : ClassDescriptor} {cause : SynthesisError}

/-- The candidate passes every step: it has the right form, can be synthesized and is supported. -/
structure Qualifies (v : Validator) (name : String) (d : ClassDescriptor) : Prop
    extends WellShaped v name d where
  supported : ∃ mirror, v.synthesize d = .ok mirror ∧ v.supports d mirror = true

/-- The candidate has the right form, but cannot be synthesized. -/
def FailsSynthesis (v : Validator) (name : String) (cause : SynthesisError) : Prop :=
  ∃ d, v.WellShaped name d ∧ v.synthesize d = .error cause

/-! ## Verdicts against no qualifiers -/

theorem validate_empty_of_wellShaped (h : v.WellShaped name d) :
    v.validate .empty name = v.judge name d :=
  (validate_of_wellShaped h).trans (if_neg List.not_mem_nil)

/-- Against no qualifiers a candidate is accepted exactly if it passes every step. -/
theorem validate_empty_eq_accepted_iff :
    v.validate .empty name = .ok (.accepted d) ↔ v.Qualifies name d := by
  rw [validate_eq_accepted_iff]
  constructor
  · rintro ⟨hwell, hold | hsupported⟩
    · exact absurd hold List.not_mem_nil
    · exact ⟨hwell, hsupported⟩
  · rintro ⟨hwell, hsupported⟩
    exact ⟨hwell, Or.inr hsupported⟩

theorem refuses_empty_iff_failsSynthesis :
    v.Refuses .empty name (.synthesisFailed cause) ↔ v.FailsSynthesis name cause := by
  constructor
  · intro hrefuses
    cases hrefuses with
    | synthesisFailed hwell hnew hsynthesize => exact ⟨_, hwell, hsynthesize⟩
  · rintro ⟨d, hwell, hsynthesize⟩
    exact .synthesisFailed hwell List.not_mem_nil hsynthesize

/-- A verdict is an error only where a failed synthesis is to stop the search. -/
theorem validate_empty_eq_error_iff {failure : LoadError} :
    v.validate .empty name = .error failure ↔
      v.policy = .abort ∧ ∃ cause, v.FailsSynthesis name cause ∧
        failure = .synthesis name cause := by
  simp only [validate_eq_error_iff, refuses_empty_iff_failsSynthesis]

/-! ## The short way is unobservable -/

/-- A set of qualifiers: each member passes every step under its own name. -/
def Settled (v : Validator) (set : QualifierSet) : Prop :=
  ∀ d ∈ set.members, v.Qualifies d.name d

theorem settled_empty : v.Settled .empty := fun _ hd => absurd hd List.not_mem_nil

theorem settled_insert {set : QualifierSet} (hset : v.Settled set) (hd : v.Qualifies d.name d) :
    v.Settled (set.insert d) := by
  unfold QualifierSet.insert
  split
  · exact hset
  · intro member hmember
    rcases List.mem_append.mp hmember with hold | hnew
    · exact hset member hold
    · rw [List.mem_singleton.mp hnew]
      exact hd

/-- **When the short way is unobservable.** The verdicts against a set are those against none exactly if
    every candidate of the right form that has a name of the set passes the other steps too. -/
theorem forall_validate_eq_iff {set : QualifierSet} :
    (∀ name, v.validate set name = v.validate .empty name) ↔
      ∀ name d, v.WellShaped name d → d.name ∈ set.names → v.Qualifies name d := by
  constructor
  · intro hsame name d hwell hname
    have haccepts : v.Accepts set name d := ⟨hwell, Or.inl hname⟩
    exact validate_empty_eq_accepted_iff.mp ((hsame name).symm.trans (validate_of_accepts haccepts))
  · intro hqualifies name
    cases hshape : v.checkShape name with
    | error reason => simp only [validate, hshape]
    | ok d =>
      have hwell := checkShape_eq_ok_iff.mp hshape
      by_cases hname : d.name ∈ set.names
      · rw [validate_of_wellShaped hwell, if_pos hname]
        exact (validate_empty_eq_accepted_iff.mpr (hqualifies name d hwell hname)).symm
      · rw [validate_of_wellShaped hwell, if_neg hname, validate_empty_of_wellShaped hwell]

/-- **Against qualifiers, the verdicts are those against none.** A member that has the candidate's name
    is the candidate's own descriptor, since the resolver is keyed; so the short way accepts what the
    long one accepts. -/
theorem validate_eq_validate_empty {set : QualifierSet} (hkeyed : v.resolve.Keyed)
    (hset : v.Settled set) (name : String) : v.validate set name = v.validate .empty name := by
  refine forall_validate_eq_iff.mpr ?_ name
  intro name d hwell hname
  obtain ⟨member, hmember, hsame⟩ := List.mem_map.mp hname
  have hqualifies := hset member hmember
  rw [hsame, hkeyed name d hwell.resolved] at hqualifies
  -- a resolver gives one descriptor for a name, so the member is the candidate's own
  obtain rfl := hwell.unique hqualifies.toWellShaped
  exact hqualifies

/-! ## Whole passes -/

/-- The descriptor that a candidate is accepted with, if it is. -/
def accepted? (v : Validator) (name : String) : Option ClassDescriptor :=
  match v.validate .empty name with
  | .ok (.accepted d) => some d
  | _ => none

/-- The failure with which a candidate stops a pass, if it does. -/
def abort? (v : Validator) (name : String) : Option LoadError :=
  match v.validate .empty name with
  | .error failure => some failure
  | .ok _ => none

theorem accepted?_eq_some_iff : v.accepted? name = some d ↔ v.Qualifies name d := by
  rw [← validate_empty_eq_accepted_iff]
  unfold accepted?
  split
  · next found h => simp [h]
  · next h =>
    constructor
    · intro hnone
      exact absurd hnone (by simp)
    · intro haccepted
      exact absurd haccepted (h d)

theorem abort?_eq_some_iff {failure : LoadError} :
    v.abort? name = some failure ↔
      v.policy = .abort ∧ ∃ cause, v.FailsSynthesis name cause ∧
        failure = .synthesis name cause := by
  rw [← validate_empty_eq_error_iff]
  unfold abort?
  split
  · next h => simp [h]
  · next h => simp [h]

theorem abort?_eq_none_of_skip (h : v.policy = .skip) : v.abort? name = none := by
  cases habort : v.abort? name with
  | none => rfl
  | some failure =>
    rw [(abort?_eq_some_iff.mp habort).1] at h
    exact absurd h (by decide)

end Validator

/-- The set with each of the descriptors inserted. -/
def QualifierSet.insertAll (set : QualifierSet) (ds : List ClassDescriptor) : QualifierSet :=
  ds.foldl insert set

namespace QualifierSet

variable {set : QualifierSet}

theorem mem_of_mem_insert {d member : ClassDescriptor} (h : member ∈ (set.insert d).members) :
    member = d ∨ member ∈ set.members := by
  unfold insert at h
  split at h
  · exact Or.inr h
  · rcases List.mem_append.mp h with hold | hnew
    · exact Or.inr hold
    · exact Or.inl (List.mem_singleton.mp hnew)

theorem mem_of_mem_insertAll {ds : List ClassDescriptor} {member : ClassDescriptor}
    (h : member ∈ (set.insertAll ds).members) : member ∈ ds ∨ member ∈ set.members := by
  induction ds generalizing set with
  | nil => exact Or.inr h
  | cons first rest ih =>
    rcases ih h with hrest | hset
    · exact Or.inl (List.mem_cons_of_mem _ hrest)
    · rcases mem_of_mem_insert hset with rfl | hset
      · exact Or.inl List.mem_cons_self
      · exact Or.inr hset

theorem mem_names_insert (set : QualifierSet) (d : ClassDescriptor) {name : String} :
    name ∈ (set.insert d).names ↔ name = d.name ∨ name ∈ set.names := by
  unfold insert
  split
  · next h =>
    constructor
    · exact Or.inr
    · rintro (rfl | hset)
      · exact h
      · exact hset
  · unfold names
    rw [List.map_append, List.mem_append, List.map_singleton, List.mem_singleton, or_comm]

theorem mem_names_insertAll {ds : List ClassDescriptor} {name : String} :
    name ∈ (set.insertAll ds).names ↔ name ∈ ds.map ClassDescriptor.name ∨ name ∈ set.names := by
  induction ds generalizing set with
  | nil => simp [insertAll]
  | cons first rest ih =>
    show name ∈ ((set.insert first).insertAll rest).names ↔ _
    rw [ih, mem_names_insert, List.map_cons, List.mem_cons]
    exact or_left_comm.trans or_assoc.symm

theorem members_insert_of_notMem {d : ClassDescriptor} (h : d.name ∉ set.names) :
    (set.insert d).members = set.members ++ [d] := by
  unfold insert
  rw [dif_neg (show d.name ∉ set.members.map ClassDescriptor.name from h)]

/-- Descriptors of new and different names are all appended, in their order. -/
theorem members_insertAll_of_nodup {ds : List ClassDescriptor}
    (h : (set.names ++ ds.map ClassDescriptor.name).Nodup) :
    (set.insertAll ds).members = set.members ++ ds := by
  induction ds generalizing set with
  | nil => simp [insertAll]
  | cons first rest ih =>
    have hfirst : first.name ∉ set.names := by
      intro hmem
      exact (List.nodup_append.mp h).2.2 _ hmem _ List.mem_cons_self rfl
    have hmembers := members_insert_of_notMem hfirst
    have hnames : (set.insert first).names = set.names ++ [first.name] := by
      rw [names, hmembers, List.map_append]
      rfl
    have hrest : ((set.insert first).names ++ rest.map ClassDescriptor.name).Nodup := by
      rw [hnames, List.append_assoc]
      exact h
    show ((set.insert first).insertAll rest).members = _
    rw [ih hrest, hmembers, List.append_assoc]
    rfl

/-- Into the empty set each name goes once, where it first comes. By induction on the descriptors from
    their end: the last one adds its name only if no earlier one has it. -/
theorem names_insertAll_empty (ds : List ClassDescriptor) :
    (empty.insertAll ds).names = (ds.map ClassDescriptor.name).eraseDups := by
  induction ds using List.reverseRecOn with
  | nil => rfl
  | append_singleton ds last ih =>
    have hlast : empty.insertAll (ds ++ [last]) = (empty.insertAll ds).insert last :=
      List.foldl_concat _ _ _ _
    rw [hlast, List.map_append, List.map_singleton]
    have hmem : last.name ∈ (empty.insertAll ds).names ↔ last.name ∈ ds.map ClassDescriptor.name := by
      rw [ih, List.mem_eraseDups]
    by_cases hseen : last.name ∈ ds.map ClassDescriptor.name
    · have hsame : (empty.insertAll ds).insert last = empty.insertAll ds := dif_pos (hmem.mpr hseen)
      rw [hsame, ih, eraseDups_concat_of_mem hseen]
    · have hmembers := members_insert_of_notMem fun h => hseen (hmem.mp h)
      rw [eraseDups_concat_of_notMem hseen, ← ih, names, hmembers, List.map_append]
      rfl

end QualifierSet

namespace Validator

variable {v : Validator}

/-- **The outcome of a pass.** Judged against any qualifiers, the candidates come to this: the first
    that stops the pass makes it fail, and if none does, every one that passes all steps is added. By
    induction over the candidates; that the set stays settled is what keeps the short way harmless. -/
theorem acceptAll_eq {known : QualifierSet → QualifierSet} (hkeyed : v.resolve.Keyed)
    (hknown : ∀ set, v.Settled set → v.Settled (known set)) (names : List String)
    {found : QualifierSet} (hfound : v.Settled found) :
    v.acceptAll known found names =
      match names.findSome? v.abort? with
      | some failure => .error failure
      | none => .ok (found.insertAll (names.filterMap v.accepted?)) := by
  induction names generalizing found with
  | nil => rfl
  | cons name rest ih =>
    have hverdict := validate_eq_validate_empty hkeyed (hknown found hfound) name
    unfold acceptAll
    rw [hverdict, List.findSome?_cons, List.filterMap_cons]
    cases hjudged : v.validate .empty name with
    | error failure =>
      rw [show v.abort? name = some failure by rw [abort?, hjudged]]
      rfl
    | ok verdict =>
      rw [show v.abort? name = none by rw [abort?, hjudged]]
      cases verdict with
      | rejected reason =>
        rw [show v.accepted? name = none by rw [accepted?, hjudged]]
        exact ih hfound
      | accepted d =>
        rw [show v.accepted? name = some d by rw [accepted?, hjudged]]
        have hqualifies := validate_empty_eq_accepted_iff.mp hjudged
        have hname := hkeyed name d hqualifies.resolved
        exact ih (settled_insert hfound (hname.symm ▸ hqualifies))

/-- What a pass adds to a settled set are qualifiers. -/
theorem settled_insertAll {set : QualifierSet} {names : List String} (hkeyed : v.resolve.Keyed)
    (hset : v.Settled set) : v.Settled (set.insertAll (names.filterMap v.accepted?)) := by
  intro d hd
  rcases QualifierSet.mem_of_mem_insertAll hd with hnew | hold
  · obtain ⟨name, _, haccepted⟩ := List.mem_filterMap.mp hnew
    have hqualifies := accepted?_eq_some_iff.mp haccepted
    rw [← hkeyed name d hqualifies.resolved] at hqualifies
    exact hqualifies
  · exact hset d hold

/-! ## Candidates in increasing order -/

variable {names : List String}

theorem name_of_accepted? (hkeyed : v.resolve.Keyed) {name : String} {d : ClassDescriptor}
    (h : v.accepted? name = some d) : d.name = name :=
  hkeyed name d (accepted?_eq_some_iff.mp h).resolved

theorem pairwise_accepted (hkeyed : v.resolve.Keyed) (hnames : names.Pairwise fun a b => a < b) :
    (names.filterMap v.accepted?).Pairwise fun a b => a.name < b.name := by
  refine hnames.filterMap _ fun a b hab d hd e he => ?_
  rw [name_of_accepted? hkeyed hd, name_of_accepted? hkeyed he]
  exact hab

/-- Candidates in increasing order are all kept, each where it comes. -/
theorem members_insertAll_accepted (hkeyed : v.resolve.Keyed)
    (hnames : names.Pairwise fun a b => a < b) :
    (QualifierSet.empty.insertAll (names.filterMap v.accepted?)).members =
      names.filterMap v.accepted? := by
  refine (QualifierSet.members_insertAll_of_nodup ?_).trans (List.nil_append _)
  show ([] ++ (names.filterMap v.accepted?).map ClassDescriptor.name).Nodup
  rw [List.nil_append, List.Nodup, List.pairwise_map]
  apply (pairwise_accepted hkeyed hnames).imp
  intro a b hlt hsame
  rw [hsame] at hlt
  exact String.lt_irrefl _ hlt

/-! ## Candidates in any order -/

/-- The candidate passes every step. -/
def accepts (v : Validator) (name : String) : Bool := (v.accepted? name).isSome

theorem accepts_iff {name : String} : v.accepts name = true ↔ ∃ d, v.Qualifies name d := by
  unfold accepts
  rw [Option.isSome_iff_exists]
  exact exists_congr fun _ => accepted?_eq_some_iff

theorem filterMap_accepted?_eq (names : List String) :
    names.filterMap v.accepted? = (names.filter v.accepts).filterMap v.accepted? := by
  rw [List.filterMap_filter]
  congr 1
  funext name
  cases haccepted : v.accepted? name with
  | none => simp
  | some d => simp [accepts, haccepted]

theorem map_name_accepted (hkeyed : v.resolve.Keyed) (names : List String) :
    (names.filterMap v.accepted?).map ClassDescriptor.name = names.filter v.accepts := by
  rw [List.map_filterMap, ← List.filterMap_eq_filter]
  congr 1
  funext name
  cases haccepted : v.accepted? name with
  | none => simp [Option.guard, accepts, haccepted]
  | some d => simp [Option.guard, accepts, haccepted, name_of_accepted? hkeyed haccepted]

theorem mem_names_accepted_iff (hkeyed : v.resolve.Keyed) {name : String} :
    name ∈ (names.filterMap v.accepted?).map ClassDescriptor.name ↔
      name ∈ names ∧ ∃ d, v.Qualifies name d := by
  rw [map_name_accepted hkeyed, List.mem_filter, accepts_iff]

/-- Of candidates in any order the qualifiers are kept, each once, where it first comes. -/
theorem names_insertAll_accepted (hkeyed : v.resolve.Keyed) (names : List String) :
    (QualifierSet.empty.insertAll (names.filterMap v.accepted?)).names =
      (names.filter v.accepts).eraseDups := by
  rw [QualifierSet.names_insertAll_empty, map_name_accepted hkeyed]

/-! ## The candidate that stops a pass -/

theorem abort?_eq_none_iff (habort : v.policy = .abort) {name : String} :
    v.abort? name = none ↔ ∀ cause, ¬ v.FailsSynthesis name cause := by
  rw [Option.eq_none_iff_forall_ne_some]
  constructor
  · intro hnone cause hfails
    exact hnone _ (abort?_eq_some_iff.mpr ⟨habort, cause, hfails, rfl⟩)
  · intro hnone failure hfailure
    obtain ⟨-, cause, hfails, -⟩ := abort?_eq_some_iff.mp hfailure
    exact hnone cause hfails

theorem findSome?_abort?_eq_none_iff (habort : v.policy = .abort) :
    names.findSome? v.abort? = none ↔ ∀ name ∈ names, ∀ cause, ¬ v.FailsSynthesis name cause := by
  rw [List.findSome?_eq_none_iff]
  exact forall₂_congr fun _ _ => abort?_eq_none_iff habort

/-- The failure is that of the first candidate that fails synthesis. -/
def FirstFailure (v : Validator) (names : List String) (failure : LoadError) : Prop :=
  ∃ before name after cause, names = before ++ name :: after ∧ v.FailsSynthesis name cause ∧
    failure = .synthesis name cause ∧
    ∀ earlier ∈ before, ∀ cause, ¬ v.FailsSynthesis earlier cause

/-- The candidate that stops a pass is the first that fails synthesis. -/
theorem findSome?_abort?_eq_some_iff (habort : v.policy = .abort) {failure : LoadError} :
    names.findSome? v.abort? = some failure ↔ v.FirstFailure names failure := by
  unfold FirstFailure
  rw [List.findSome?_eq_some_iff]
  constructor
  · rintro ⟨before, name, after, hnames, hfailure, hbefore⟩
    obtain ⟨-, cause, hfails, hcause⟩ := abort?_eq_some_iff.mp hfailure
    refine ⟨before, name, after, cause, hnames, hfails, hcause, fun earlier hearlier => ?_⟩
    exact (abort?_eq_none_iff habort).mp (hbefore earlier hearlier)
  · rintro ⟨before, name, after, cause, hnames, hfails, hcause, hbefore⟩
    refine ⟨before, name, after, hnames, ?_, fun earlier hearlier => ?_⟩
    · exact abort?_eq_some_iff.mpr ⟨habort, cause, hfails, hcause⟩
    · exact (abort?_eq_none_iff habort).mpr (hbefore earlier hearlier)

/-- Among candidates in increasing order, the one that stops a pass is the smallest that fails. -/
theorem exists_first_of_findSome?_abort? {failure : LoadError}
    (hnames : names.Pairwise fun a b => a < b) (h : names.findSome? v.abort? = some failure) :
    ∃ name ∈ names, ∃ cause, v.FailsSynthesis name cause ∧ failure = .synthesis name cause ∧
      ∀ earlier ∈ names, earlier < name → ∀ cause, ¬ v.FailsSynthesis earlier cause := by
  obtain ⟨failing, -, hfailing⟩ := List.exists_of_findSome?_eq_some h
  have habort := (abort?_eq_some_iff.mp hfailing).1
  obtain ⟨before, name, after, cause, rfl, hfails, rfl, hbefore⟩ :=
    (findSome?_abort?_eq_some_iff habort).mp h
  refine ⟨name, by simp, cause, hfails, rfl, fun earlier hearlier hlt => ?_⟩
  rcases List.mem_append.mp hearlier with hmem | hmem
  · exact hbefore earlier hmem
  · -- the names from `name` on are not smaller than it
    have hafter := (List.pairwise_append.mp hnames).2.1
    rcases List.mem_cons.mp hmem with rfl | hmem
    · exact absurd hlt (String.lt_irrefl _)
    · exact absurd hlt (String.lt_asymm ((List.pairwise_cons.mp hafter).1 _ hmem))

end Validator

end QualifierDiscovery
