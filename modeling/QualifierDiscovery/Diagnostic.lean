import QualifierDiscovery.Json.Decode

/-!
# Diagnostics

What a search reports to the user: notes and errors, in the order in which they arise.
-/

namespace QualifierDiscovery

/-- How serious a diagnostic is. -/
inductive DiagnosticKind
  | note
  | error
  deriving DecidableEq

/-- A report to the user. -/
structure Diagnostic where
  kind : DiagnosticKind
  message : String
  deriving DecidableEq

/-- The word for a kind. -/
def DiagnosticKind.word : DiagnosticKind → String
  | .note => "note"
  | .error => "error"

namespace Diagnostic

/-- A note. -/
def note (message : String) : Diagnostic := ⟨.note, message⟩

/-- An error. -/
def error (message : String) : Diagnostic := ⟨.error, message⟩

/-- The diagnostic as it is shown. -/
def text (d : Diagnostic) : String := d.kind.word ++ ": " ++ d.message

/-- The messages of one kind, in their order. -/
def messagesOf (kind : DiagnosticKind) (reports : List Diagnostic) : List String :=
  (reports.filter fun d => d.kind == kind).map Diagnostic.message

/-- What has been read of a diagnostic. -/
structure Draft where
  kind : Option DiagnosticKind := none
  message : Option String := none

/-- The record that a diagnostic is in JSON. -/
def record : Json.Record Draft Diagnostic where
  name := "Diagnostic"
  fields :=
    [.of "kind" false Draft.kind (fun x d => { d with kind := some x })
        (Json.decodeVariant [("note", .note), ("error", .error)]),
      .of "message" false Draft.message (fun x d => { d with message := some x })
        Json.decodeString]
  empty := {}
  finish := fun draft => do
    let kind ← Json.required "kind" draft.kind
    let message ← Json.required "message" draft.message
    .ok ⟨kind, message⟩

/-- Reads a diagnostic. -/
def decode : Json.Decoder Diagnostic := Json.decodeRecord record

end Diagnostic

end QualifierDiscovery
