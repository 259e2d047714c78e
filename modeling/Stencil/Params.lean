import Stencil.Json

/-!
# Parameters

A render takes named scalar values. Each value is either truthy or not, for conditions,
and has a text, for interpolations; a name with no value counts as null. Parameters are
kept in the order of their names.
-/

namespace Stencil

/-- The value of a parameter. -/
inductive Value where
  /-- Null. -/
  | null
  /-- A truth value. -/
  | bool (b : Bool)
  /-- A number. -/
  | number (n : Number)
  /-- A text. -/
  | string (s : String)
  deriving DecidableEq, Repr

namespace Value

/-- Null, false and the empty text are not truthy; every number is. -/
def truthy : Value → Bool
  | null => false
  | bool b => b
  | number _ => true
  | string s => !s.isEmpty

/-- The text inserted for a value before the mode has its say. -/
def text : Value → String
  | null => ""
  | bool true => "true"
  | bool false => "false"
  | number n => n.text
  | string s => s

/-- The value as JSON. -/
def toJson : Value → Json
  | null => .null
  | bool b => .bool b
  | number n => .number n
  | string s => .string s

/-- The value that JSON stands for, if it is a scalar. -/
def ofJson? : Json → Option Value
  | .null => some null
  | .bool b => some (bool b)
  | .number n => some (number n)
  | .string s => some (string s)
  | .array _ | .object _ => none

theorem ofJson?_toJson (v : Value) : ofJson? v.toJson = some v := by cases v <;> rfl

end Value

/-- The parameters of a render. -/
structure Params where
  /-- The values by name, in the order of their names. -/
  fields : List (String × Value)
  deriving DecidableEq, Repr

namespace Params

/-- No parameters. -/
def empty : Params := ⟨[]⟩

/-- The parameters of a list; the last value of a name stays. -/
def ofList (fields : List (String × Value)) : Params := ⟨Fields.ofList fields⟩

/-- One more value, in place of an earlier one of its name. -/
def insert (p : Params) (name : String) (value : Value) : Params :=
  ⟨Fields.insert name value p.fields⟩

/-- The value of a name. -/
def get? (p : Params) (name : String) : Option Value := Fields.get? name p.fields

/-- Whether a name has a truthy value. -/
def truthy (p : Params) (name : String) : Bool := (p.get? name).any Value.truthy

/-- The text of a name; a name with no value has none. -/
def text (p : Params) (name : String) : String := ((p.get? name).map Value.text).getD ""

/-- The number of values. -/
def size (p : Params) : Nat := p.fields.length

/-- The parameters as JSON. -/
def toJson (p : Params) : Json := .object (p.fields.map fun (k, v) => (k, v.toJson))

end Params

end Stencil
