import Stencil.Json
import Stencil.Visible

/-!
# Values that do not fit

A well-formed JSON value may still not be what was asked for. `Misfit` says in what way, and
its message names the value that was found: scalars with their text, arrays and objects by
their kind alone.
-/

namespace Stencil

/-- How messages name a JSON value. -/
def Json.describe : Json → String
  | null => "null"
  | bool b => "boolean `" ++ (if b then "true" else "false") ++ "`"
  | number (.int n) => "integer `" ++ toString n ++ "`"
  | number (.float x) => "floating point `" ++ (Number.float x).text ++ "`"
  | string s => "string " ++ Visible.quote s
  | array _ => "sequence"
  | object _ => "map"

/-- In what way a JSON value is not what was asked for. -/
inductive Misfit where
  /-- A string was asked for. -/
  | notAString (found : Json)
  /-- An object was asked for. -/
  | notAnObject (found : Json)
  /-- A scalar was asked for. -/
  | notAScalar
  deriving Repr

/-- The message for a misfit. -/
def Misfit.message : Misfit → String
  | notAString found => "invalid type: " ++ found.describe ++ ", expected a string"
  | notAnObject found => "invalid type: " ++ found.describe ++ ", expected a map"
  | notAScalar => "data did not match any variant of untagged enum Value"

end Stencil
