import Stencil.Json.Fit
import Stencil.Json.Reader
import Stencil.Params

/-!
# Reading parameters

Parameters come as a JSON value that has been read (`Params.ofJson`), or straight from a JSON
text (`Params.read`). Either way they are an object whose values are all scalars, or null for
an empty one in the first case. From a text every field is checked, also one that a later
field replaces, and a message says where the reader stood.
-/

namespace Stencil

namespace Params

/-- The scalar that each field stands for. -/
def scalars : List (String × Json) → Except Misfit (List (String × Value))
  | [] => .ok []
  | (name, v) :: rest =>
    match Value.ofJson? v with
    | none => .error .notAScalar
    | some value => (scalars rest).map ((name, value) :: ·)

/-- The parameters that an object stands for. -/
def ofJson : Json → Except Misfit Params
  | .object fields => (scalars fields).map ofList
  | v => .error (.notAnObject v)

/-! ### From a text -/

open Json (Failure)

/-- A misfit, noticed after everything before `cs` was looked at. -/
def misfit (m : Misfit) (cs : List Char) : Failure := .before (.unfit m.message) cs

/-- The text after a field that does not fit: the reader still looks for the end of the object
right after it. -/
def afterMisfit (cs : List Char) : List Char :=
  match Json.skipSpace cs with
  | [] => []
  | c :: rest => if c = '\x7d' then rest else c :: rest

/-- The fields of an object of scalars, up to its end. -/
def fieldsOfText (first : Bool) (cs : List Char) :
    Except Failure (Parsed (List (String × Value)) cs.length) := do
  match ← Json.nextField first cs with
  | .finished rest h => return ⟨[], rest, h⟩
  | .field name rest h =>
    let v ← Json.value (Json.depthLimit - 1) rest
    have hv := v.length_rest_lt
    match Value.ofJson? v.value with
    | none => .error (misfit .notAScalar (afterMisfit v.rest))
    | some value =>
      let more ← fieldsOfText false v.rest
      return (more.map ((name, value) :: ·)).widen (by omega)
termination_by cs.length

/-- The parameters that a text stands for. An array is refused before it is read. -/
def readChars (cs : List Char) : Except Failure Params := do
  match Json.skipSpace cs with
  | '\x7b' :: rest =>
    let fields ← fieldsOfText true rest
    Json.ended fields.rest
    return ofList fields.value
  | '[' :: rest => .error (misfit (.notAnObject (.array [])) ('[' :: rest))
  | other =>
    let v ← Json.value Json.depthLimit other
    .error (misfit (.notAnObject v.value) v.rest)

/-- The parameters that a text stands for, or a message that says where it goes wrong. -/
def read (source : String) : Except String Params :=
  (readChars source.toList).mapError (Failure.message source.toList)

end Params

end Stencil
