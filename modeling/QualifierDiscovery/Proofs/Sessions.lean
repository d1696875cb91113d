import QualifierDiscovery.Bootstrap
import QualifierDiscovery.Proofs.ExternalLoading

/-!
# `Proofs.Sessions` — what is reported over the life of a loader

A loader is built once and then asked any number of times, while files change and classes come and go. All
that is reported while it is built are notes (`isNote_of_build`). A call reports the text of its failure if
that is the user's to mend, and nothing otherwise (`reports_of_answer`): a synthesis that stops a load is
passed on without a report, and so is every answer that is not a failure. So the errors that have been
collected at any time are the texts of the user failures among the answers so far (`run_reports`).

## Contents
- **Failures.** `exists_synthesis_of_acceptAll_eq_error` — all that can stop a pass over candidates.
- **Calls.** `Request`, `Answer`, and the reports of one call.
- **Sessions.** `Session.run` — calls one after the other; `Session.errors_exact`.
-/

namespace QualifierDiscovery

/-! ## Failures -/

namespace Validator

variable {v : Validator} {name : String} {failure : LoadError}

/-- A verdict fails only for a synthesis that is to stop the load. -/
theorem exists_synthesis_of_validate_eq_error {known : QualifierSet}
    (h : v.validate known name = .error failure) : ∃ cause, failure = .synthesis name cause := by
  unfold validate at h
  split at h
  · exact absurd h (by simp)
  · split at h
    · exact absurd h (by simp)
    · unfold judge at h
      split at h
      · next cause _ =>
        split at h
        · exact ⟨cause, (Except.error.inj h).symm⟩
        · exact absurd h (by simp)
      · split at h <;> exact absurd h (by simp)

/-- So does a pass over candidates. By induction over the candidates. -/
theorem exists_synthesis_of_acceptAll_eq_error {known : QualifierSet → QualifierSet}
    {found : QualifierSet} {names : List String}
    (h : v.acceptAll known found names = .error failure) :
    ∃ name cause, failure = .synthesis name cause := by
  induction names generalizing found with
  | nil => exact absurd h (by simp [acceptAll])
  | cons name rest ih =>
    unfold acceptAll at h
    cases hverdict : v.validate (known found) name with
    | error stop =>
      rw [hverdict] at h
      obtain ⟨cause, hcause⟩ := exists_synthesis_of_validate_eq_error hverdict
      exact ⟨name, cause, (Except.error.inj h).symm.trans hcause⟩
    | ok verdict =>
      rw [hverdict] at h
      cases verdict with
      | accepted d => exact ih h
      | rejected reason => exact ih h

end Validator

/-! ## Calls -/

/-- What surrounds a loader at one time: the files, and what is known of classes, of their synthesis and of
    the checker's support. -/
structure Surroundings where
  files : FileSystem
  resolve : Resolver
  synthesize : Synthesizer
  supports : Support

/-- What a user asks a loader for. -/
inductive Request
  | directory (path : String)
  | named (name : String)

/-- What a loader answers. -/
inductive Answer
  | set (set : QualifierSet)
  | qualifier (descriptor : ClassDescriptor)
  | failed (failure : LoadError)

namespace Answer

/-- The full text of an answer that is a user's failure. -/
def userText? : Answer → Option String
  | .failed (.user checker message) => some (LoadError.user checker message).message
  | _ => none

/-- The result of a load as an answer. -/
def ofResult {α : Type} (found : α → Answer) : Except LoadError α → Answer
  | .ok a => found a
  | .error failure => .failed failure

theorem userText?_ofResult_eq_none {α : Type} {found : α → Answer} {result : Except LoadError α}
    (hfound : ∀ a, (found a).userText? = none)
    (hresult : ∀ failure, result = .error failure → ∃ name cause, failure = .synthesis name cause) :
    (ofResult found result).userText? = none := by
  cases result with
  | ok a => exact hfound a
  | error failure =>
    obtain ⟨name, cause, rfl⟩ := hresult failure rfl
    rfl

end Answer

namespace Loader

variable {loader : Loader} {around : Surroundings}

/-- A loader as it judges in given surroundings. The policy for failed syntheses is its own. -/
def amid (loader : Loader) (around : Surroundings) : Loader :=
  { loader with
    validator := { loader.validator with
      resolve := around.resolve
      synthesize := around.synthesize
      supports := around.supports } }

/-- The answer to a request, with what is reported on the way. -/
def answer (loader : Loader) (around : Surroundings) : Request → Answer × List Diagnostic
  | .directory path =>
    let (result, reports) := (loader.amid around).loadDirectory around.files path
    (.ofResult .set result, reports)
  | .named name =>
    let (result, reports) := (loader.amid around).loadClass name
    (.ofResult .qualifier result, reports)

/-- A user's failure is reported with its full text. -/
theorem reports_userFailure {α : Type} (loader : Loader) (found : α → Answer) (message : String) :
    (loader.userFailure message : Reported α).2 =
      (Answer.ofResult found (loader.userFailure message : Reported α).1).userText?.toList.map
        Diagnostic.error :=
  rfl

theorem reports_loadDirectory (loader : Loader) (files : FileSystem) (path : String) :
    (loader.loadDirectory files path).2 =
      (Answer.ofResult .set (loader.loadDirectory files path).1).userText?.toList.map
        Diagnostic.error := by
  cases hdir : files.isDirectory path with
  | false =>
    rw [loadDirectory_of_not_isDirectory hdir]
    exact reports_userFailure loader _ _
  | true =>
    have hpass : loader.loadDirectory files path =
        (loader.validator.acceptAll (fun _ => loader.loaded) .empty
          (loader.candidatesBelow files path), []) := by
      unfold loadDirectory
      rw [if_pos hdir]
      rfl
    have hsilent : (Answer.ofResult .set (loader.validator.acceptAll (fun _ => loader.loaded) .empty
        (loader.candidatesBelow files path))).userText? = none := by
      apply Answer.userText?_ofResult_eq_none
      · exact fun _ => rfl
      · exact fun _ => Validator.exists_synthesis_of_acceptAll_eq_error
    rw [hpass]
    dsimp only
    rw [hsilent]
    rfl

theorem reports_loadClass (loader : Loader) (name : String) :
    (loader.loadClass name).2 =
      (Answer.ofResult .qualifier (loader.loadClass name).1).userText?.toList.map
        Diagnostic.error := by
  unfold loadClass
  cases hverdict : loader.validator.validate loader.loaded name with
  | error failure =>
    obtain ⟨cause, rfl⟩ := Validator.exists_synthesis_of_validate_eq_error hverdict
    rfl
  | ok verdict =>
    cases verdict with
    | accepted d => rfl
    | rejected reason => exact reports_userFailure loader _ _

/-- **A call reports the text of its answer if that is a user's failure**, and nothing otherwise. -/
theorem reports_of_answer (loader : Loader) (around : Surroundings) (request : Request) :
    (loader.answer around request).2 =
      (loader.answer around request).1.userText?.toList.map Diagnostic.error := by
  cases request with
  | directory path => exact reports_loadDirectory (loader.amid around) around.files path
  | named name => exact reports_loadClass (loader.amid around) name

end Loader

/-! ## Reports of a build -/

namespace Diagnostic

/-- The report is a note. -/
def IsNote (d : Diagnostic) : Prop := d.kind = .note

theorem messagesOf_append (kind : DiagnosticKind) (reports more : List Diagnostic) :
    messagesOf kind (reports ++ more) = messagesOf kind reports ++ messagesOf kind more := by
  unfold messagesOf
  rw [List.filter_append, List.map_append]

theorem messagesOf_error_of_notes {reports : List Diagnostic} (h : ∀ d ∈ reports, d.IsNote) :
    messagesOf .error reports = [] := by
  unfold messagesOf
  rw [List.map_eq_nil_iff, List.filter_eq_nil_iff]
  intro d hd
  rw [h d hd]
  decide

theorem messagesOf_map_error (texts : List String) :
    messagesOf .error (texts.map error) = texts ∧ messagesOf .note (texts.map error) = [] := by
  induction texts with
  | nil => exact ⟨rfl, rfl⟩
  | cons text rest ih => exact ⟨congrArg (text :: ·) ih.1, ih.2⟩

end Diagnostic

theorem isNote_of_locateIn {fs : FileSystem} {layout : Layout} {package : Package} {entry : String} :
    ∀ d ∈ (locateIn fs layout package entry).2, d.IsNote := by
  intro d hd
  unfold locateIn at hd
  split at hd
  all_goals
    split at hd
    · rw [List.mem_singleton.mp hd]
      rfl
    · exact absurd hd List.not_mem_nil

theorem isNote_of_locateAmong {fs : FileSystem} {layout : Layout} {package : Package}
    (entries : List String) : ∀ d ∈ (locateAmong fs layout package entries).2, d.IsNote := by
  induction entries with
  | nil => exact fun d hd => absurd hd List.not_mem_nil
  | cons entry rest ih =>
    intro d hd
    have hentry := @isNote_of_locateIn fs layout package entry d
    unfold locateAmong at hd
    generalize locateIn fs layout package entry = given at hd hentry
    obtain ⟨_ | location, notes⟩ := given
    · rcases List.mem_append.mp hd with hnotes | hmore
      · exact hentry hnotes
      · exact ih d hmore
    · exact hentry hd

/-- What is reported while a loader is built are notes. -/
theorem LoaderSetup.isNote_of_build (setup : LoaderSetup) (fs : FileSystem) :
    ∀ d ∈ (setup.build fs).2, d.IsNote := by
  intro d hd
  unfold build at hd
  split at hd
  · exact absurd hd List.not_mem_nil
  · next resolver package _ =>
    -- only the search reports anything, whether the pass after it fails or not
    have hnotes := @isNote_of_locateAmong fs setup.config.layout package setup.searchPath.entries d
    dsimp only at hd
    split at hd
    · exact hnotes hd
    · exact hnotes hd

/-- So is what is reported while the search path is collected. -/
theorem LoaderOptions.isNote_of_build (options : LoaderOptions) (fs : FileSystem)
    (environment : Sources) : ∀ d ∈ (options.build fs environment).2, d.IsNote := by
  intro d hd
  unfold build at hd
  split at hd
  · exact absurd hd List.not_mem_nil
  · next config registry _ =>
    rcases List.mem_append.mp hd with hcollected | hlocated
    · obtain ⟨url, -, rfl⟩ := List.mem_map.mp hcollected
      rfl
    · exact LoaderSetup.isNote_of_build _ fs d hlocated

/-- A loader that has been built, and what was collected of reports on the way. -/
inductive Built : Loader → List Diagnostic → Prop
  | ofSetup {setup : LoaderSetup} {fs : FileSystem} {loader : Loader} {reports : List Diagnostic}
    (hbuild : setup.build fs = (.ok loader, reports)) : Built loader reports
  | ofOptions {options : LoaderOptions} {fs : FileSystem} {environment : Sources} {loader : Loader}
    {reports : List Diagnostic} (hbuild : options.build fs environment = (.ok loader, reports)) :
    Built loader reports

theorem Built.isNote {loader : Loader} {reports : List Diagnostic} (h : Built loader reports) :
    ∀ d ∈ reports, d.IsNote := by
  cases h with
  | @ofSetup setup fs _ _ hbuild =>
    have hnotes := setup.isNote_of_build fs
    rwa [hbuild] at hnotes
  | @ofOptions options fs environment _ _ hbuild =>
    have hnotes := options.isNote_of_build fs environment
    rwa [hbuild] at hnotes

/-! ## Sessions -/

/-- A loader together with all that has been reported so far. -/
structure Session where
  loader : Loader
  reports : List Diagnostic

namespace Session

/-- One call: its answer, and the session after it. -/
def ask (session : Session) (around : Surroundings) (request : Request) : Answer × Session :=
  let (answer, reports) := session.loader.answer around request
  (answer, { session with reports := session.reports ++ reports })

/-- Calls one after the other, each in the surroundings of its time: their answers in order, and the session
    after them. -/
def run : Session → List (Surroundings × Request) → List Answer × Session
  | session, [] => ([], session)
  | session, (around, request) :: rest =>
    let (answer, asked) := session.ask around request
    let (answers, ended) := asked.run rest
    (answer :: answers, ended)

/-- What one call does to a session: it is answered by the loader, which stays as it is, and the text of a
    user's failure is added to the reports. -/
theorem ask_eq (session : Session) (around : Surroundings) (request : Request) :
    session.ask around request =
      ((session.loader.answer around request).1,
        ⟨session.loader, session.reports ++
          (session.loader.answer around request).1.userText?.toList.map Diagnostic.error⟩) := by
  unfold ask
  rw [← session.loader.reports_of_answer around request]

theorem run_cons (session : Session) (around : Surroundings) (request : Request)
    (rest : List (Surroundings × Request)) :
    session.run ((around, request) :: rest) =
      ((session.ask around request).1 :: ((session.ask around request).2.run rest).1,
        ((session.ask around request).2.run rest).2) :=
  rfl

/-- Every call is answered by the loader as it was at the start. -/
theorem run_answers (session : Session) (calls : List (Surroundings × Request)) :
    (session.run calls).1 = calls.map fun call => (session.loader.answer call.1 call.2).1 := by
  induction calls generalizing session with
  | nil => rfl
  | cons call rest ih =>
    obtain ⟨around, request⟩ := call
    rw [run_cons, ih, ask_eq]
    rfl

theorem run_loader (session : Session) (calls : List (Surroundings × Request)) :
    (session.run calls).2.loader = session.loader := by
  induction calls generalizing session with
  | nil => rfl
  | cons call rest ih =>
    obtain ⟨around, request⟩ := call
    rw [run_cons, ih, ask_eq]

/-- **The reports of a session** are those it began with and then the texts of the user failures among its
    answers. By induction over the calls. -/
theorem run_reports (session : Session) (calls : List (Surroundings × Request)) :
    (session.run calls).2.reports = session.reports ++
      ((session.run calls).1.filterMap Answer.userText?).map Diagnostic.error := by
  induction calls generalizing session with
  | nil => exact (List.append_nil session.reports).symm
  | cons call rest ih =>
    obtain ⟨around, request⟩ := call
    rw [run_cons, ih, ask_eq]
    dsimp only
    rw [List.append_assoc, ← List.map_append]
    congr 2
    -- the first answer has a text to add, or the rest adds all
    cases htext : (session.loader.answer around request).1.userText? with
    | none => rw [List.filterMap_cons_none htext, Option.toList_none, List.nil_append]
    | some text => rw [List.filterMap_cons_some htext, Option.toList_some, List.singleton_append]

/-- **The errors of a session account for its user failures.** A loader that has been built has reported no
    error. After any calls, whatever happens to files and classes between them, the errors are the full
    texts of the answers that were user failures, in the order of the calls; the notes are those of the
    build; and every answer is given by the loader that was built, with its qualifiers and its
    location. -/
theorem errors_exact {session : Session} (hbuilt : Built session.loader session.reports) :
    Diagnostic.messagesOf .error session.reports = [] ∧
    ∀ calls : List (Surroundings × Request),
      (session.run calls).1 = calls.map (fun call => (session.loader.answer call.1 call.2).1) ∧
      Diagnostic.messagesOf .error (session.run calls).2.reports =
        (session.run calls).1.filterMap Answer.userText? ∧
      Diagnostic.messagesOf .note (session.run calls).2.reports =
        Diagnostic.messagesOf .note session.reports ∧
      (session.run calls).2.loader.loaded = session.loader.loaded ∧
      (session.run calls).2.loader.location = session.loader.location := by
  have hnone := Diagnostic.messagesOf_error_of_notes hbuilt.isNote
  refine ⟨hnone, fun calls => ?_⟩
  obtain ⟨herrors, hnotes⟩ :=
    Diagnostic.messagesOf_map_error ((session.run calls).1.filterMap Answer.userText?)
  have hloader := session.run_loader calls
  refine ⟨session.run_answers calls, ?_, ?_, by rw [hloader], by rw [hloader]⟩
  · rw [run_reports, Diagnostic.messagesOf_append, hnone, herrors, List.nil_append]
  · rw [run_reports, Diagnostic.messagesOf_append, hnotes, List.append_nil]

/-- Files, and a registry of one annotation type that can be synthesized and is supported. -/
def oneAround (files : FileSystem) (name : String) (h : Name.isQualified name = true) :
    Surroundings where
  files := files
  resolve := (Registry.single name h).resolve
  synthesize := synthesizeFrom (Registry.single name h).resolve
  supports := .always

/-- A name that is known, a directory that is missing, and the name again after its class has gone. -/
def threeCalls : List (Surroundings × Request) :=
  [(oneAround .empty "demo.A" (by decide), .named "demo.A"),
    (oneAround .empty "demo.A" (by decide), .directory "/src"),
    (oneAround .empty "demo.B" (by decide), .named "demo.A")]

theorem errors_exact_threeCalls :
    ∃ session : Session, (LoaderSetup.oneQualifier "qual.C" (by decide)).build
        (LoaderSetup.oneFile "C.class" (by decide)) = (.ok session.loader, session.reports) ∧
      Diagnostic.messagesOf .error (session.run threeCalls).2.reports =
        ["Demo: qualifier directory /src does not exist or is not a directory",
          "Demo: could not load class for annotation: demo.A; ensure that your classpath is correct"] := by
  have hbuilds : ∃ loader reports, (LoaderSetup.oneQualifier "qual.C" (by decide)).build
      (LoaderSetup.oneFile "C.class" (by decide)) = (.ok loader, reports) ∧
        (threeCalls.map fun call => (loader.answer call.1 call.2).1).filterMap Answer.userText? =
          ["Demo: qualifier directory /src does not exist or is not a directory",
            "Demo: could not load class for annotation: demo.A; ensure that your classpath is correct"] :=
    ⟨_, _, rfl, by decide +kernel⟩
  obtain ⟨loader, reports, hbuild, htexts⟩ := hbuilds
  obtain ⟨-, hcalls⟩ := @errors_exact ⟨loader, reports⟩ (.ofSetup hbuild)
  obtain ⟨hanswers, herrors, -⟩ := hcalls threeCalls
  rw [hanswers, htexts] at herrors
  exact ⟨⟨loader, reports⟩, hbuild, herrors⟩

end Session

end QualifierDiscovery
