import Stencil.Number.Shortest

/-!
# TOML values

What a TOML document can hold. Of a date or a time only that it is one is kept. A table keeps
its entries in the order in which they were first named.
-/

namespace Stencil

namespace Toml

/-- A floating point number of TOML. -/
inductive Real where
  /-- A finite number. -/
  | finite (x : Binary64)
  /-- Infinity, with its sign. -/
  | infinity (negative : Bool)
  /-- No number. -/
  | nan
  deriving DecidableEq, Repr

/-- A number is written out in full, with a point. -/
def Real.text : Real → String
  | finite x => (DecimalLayout.mk none).text x
  | infinity negative => if negative then "-inf" else "inf"
  | nan => "NaN"

end Toml

/-- A TOML value. -/
inductive Toml where
  /-- A string. -/
  | string (s : String)
  /-- An integer. -/
  | integer (n : Int)
  /-- A floating point number. -/
  | float (x : Toml.Real)
  /-- A truth value. -/
  | boolean (b : Bool)
  /-- A date, a time or both. -/
  | dateTime
  /-- An array. -/
  | array (items : List Toml)
  /-- A table. -/
  | table (entries : List (String × Toml))
  deriving Repr

end Stencil
