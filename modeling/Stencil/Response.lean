import Stencil.Diagnostic
import Stencil.Json

/-!
# Responses

What a request is answered with: a status and a JSON object, which holds the rendered text or
describes the failure.
-/

namespace Stencil

/-- An answer to a request. -/
structure Response where
  /-- The status. -/
  status : Nat
  /-- The body. -/
  body : Json
  deriving Repr

namespace Response

/-- The status of a render that succeeded. -/
def okStatus : Nat := 200

/-- The answer with a rendered text. -/
def success (text : String) : Response := ⟨okStatus, .object [("result", .string text)]⟩

/-- A number, or null. -/
def numberOrNull (n : Option Nat) : Json := (n.map fun n => Json.number (.int n)).getD .null

/-- The answer that describes a failure. -/
def failure (d : Diagnostic) : Response :=
  ⟨d.kind.status, .object
    [("column", numberOrNull (d.position.map Position.column)),
     ("kind", .string d.kind.name),
     ("line", numberOrNull (d.position.map Position.line)),
     ("message", .string d.message),
     ("origin", (d.origin.map Json.string).getD .null),
     ("status", .string "ERROR")]⟩

/-- The answer for the outcome of a render. -/
def ofResult : Except Diagnostic String → Response
  | .ok text => success text
  | .error d => failure d

/-- Whether the render succeeded. -/
def isSuccess (r : Response) : Bool := r.status == okStatus

/-- The rendered text. -/
def result? (r : Response) : Option String :=
  match r.body with
  | .object fields =>
    match Fields.get? "result" fields with
    | some (.string text) => some text
    | _ => none
  | _ => none

/-- The body as text. -/
def bodyText (r : Response) : String := r.body.text

end Response

end Stencil
