import Stencil.ParseError
import Stencil.Position

/-!
# Diagnostics

A render that fails says what kind of failure it is, with a message, the place in the
template where it happened, and the include whose template that is.
-/

namespace Stencil

/-- The kinds of failure. -/
inductive DiagnosticKind where
  /-- A template does not parse. -/
  | parseError
  /-- A limit of the render was exceeded, or includes form a cycle. -/
  | evaluationError
  /-- An include was refused. -/
  | sandboxViolation
  /-- A request is malformed. -/
  | validationError
  deriving DecidableEq, Repr

namespace DiagnosticKind

/-- The name of a kind. -/
def name : DiagnosticKind → String
  | parseError => "ParseError"
  | evaluationError => "EvaluationError"
  | sandboxViolation => "SandboxViolation"
  | validationError => "ValidationError"

/-- The status a request is answered with. -/
def status : DiagnosticKind → Nat
  | validationError | parseError => 400
  | sandboxViolation => 403
  | evaluationError => 422

end DiagnosticKind

/-- A failure of a render. -/
structure Diagnostic where
  /-- What kind of failure it is. -/
  kind : DiagnosticKind
  /-- What went wrong. -/
  message : String
  /-- Where, in the template that `origin` names. -/
  span : Option Span
  /-- The line and column of the start of the span. -/
  position : Option Position
  /-- The include that the failure happened in; nothing for the template of the render
  itself. -/
  origin : Option String
  deriving DecidableEq, Repr

namespace Diagnostic

/-- A failure that happened nowhere in particular. -/
def of (kind : DiagnosticKind) (message : String) : Diagnostic := ⟨kind, message, none, none, none⟩

/-- A malformed request. -/
def validation (message : String) : Diagnostic := of .validationError message

/-- The failure with a span of `source`. -/
def withSpan (d : Diagnostic) (span : Span) (source : String) : Diagnostic :=
  { d with span := some span, position := some (Position.locate source span.start) }

/-- The failure with the position of its span in `source`, if it has a span. -/
def locate (d : Diagnostic) (source : String) : Diagnostic :=
  match d.span with
  | some span => { d with position := some (Position.locate source span.start) }
  | none => d

/-- The failure with an include it happened in; the first one stays. -/
def withOrigin (d : Diagnostic) (origin : Option String) : Diagnostic :=
  { d with origin := d.origin <|> origin }

/-- The failure on one line. -/
def display (d : Diagnostic) : String := d.kind.name ++ ": " ++ d.message

/-- A defect of a template, with what would have been accepted. -/
def ofParseError (e : ParseError) : Diagnostic :=
  let expected := e.expected
  let message :=
    if expected.isEmpty then e.message
    else e.message ++ " (expected " ++ ", ".intercalate expected ++ ")"
  { of .parseError message with span := some e.span }

end Diagnostic

end Stencil
