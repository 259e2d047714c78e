import Stencil.Diagnostic
import Stencil.Params.Reader

/-!
# Requests

A request is a JSON object that may name a template, parameters and a mode; null counts as
missing, other fields do not matter, and a mode that is no string counts as missing too. When
neither the parameters nor the template fit, the parameters are reported.
-/

namespace Stencil

/-- A request to render a template. -/
structure RenderRequest where
  /-- The template. -/
  template : Option String
  /-- The parameters. -/
  params : Option Params
  /-- The name of the mode. -/
  mode : Option String
  deriving DecidableEq, Repr

/-- Why a request cannot be answered. -/
inductive RequestError where
  /-- The text is not JSON. -/
  | invalidJson (reason : String)
  /-- The JSON is no object. -/
  | notAnObject
  /-- A field has a value that does not fit. -/
  | invalidField (misfit : Misfit)
  /-- There is no template. -/
  | missingTemplate
  deriving Repr

/-- The message for a request error. -/
def RequestError.message : RequestError → String
  | invalidJson reason => "request body is not valid JSON: " ++ reason
  | notAnObject => "request body must be a JSON object"
  | invalidField misfit => "invalid request field: " ++ misfit.message
  | missingTemplate => "missing required field: template"

/-- The diagnostic for a request error. -/
def RequestError.diagnostic (e : RequestError) : Diagnostic := .validation e.message

namespace RenderRequest

/-- The mode that a value stands for. -/
def modeOf : Json → Option String
  | .string name => some name
  | _ => none

/-- The parameters that a value stands for. -/
def paramsOf : Json → Except Misfit (Option Params)
  | .null => .ok none
  | v => (Params.ofJson v).map some

/-- The template that a value stands for. -/
def templateOf : Json → Except Misfit (Option String)
  | .null => .ok none
  | .string s => .ok (some s)
  | v => .error (.notAString v)

/-- The request that the fields of an object make. -/
def ofFields (fields : List (String × Json)) : Except Misfit RenderRequest := do
  let field (name : String) : Json := (Fields.get? name fields).getD .null
  let params ← paramsOf (field "params")
  let template ← templateOf (field "template")
  return ⟨template, params, modeOf (field "mode")⟩

/-- The request that a JSON value makes. -/
def ofJson : Json → Except RequestError RenderRequest
  | .object fields => (ofFields fields).mapError .invalidField
  | _ => .error .notAnObject

/-- The request that a text makes. -/
def read (body : String) : Except RequestError RenderRequest := do
  let v ← (Json.read body).mapError RequestError.invalidJson
  ofJson v

/-- The template of a request, which it must have. -/
def requireTemplate (r : RenderRequest) : Except RequestError String :=
  match r.template with
  | some template => .ok template
  | none => .error .missingTemplate

/-- The request as JSON; what is missing is null. -/
def toJson (r : RenderRequest) : Json :=
  .object
    [("template", (r.template.map Json.string).getD .null),
     ("params", (r.params.map Params.toJson).getD .null),
     ("mode", (r.mode.map Json.string).getD .null)]

end RenderRequest

end Stencil
