/-!
# Conditions

The condition of an `if` or `elif` is built from parameter names with `not`, `and`
and `or`. `and` and `or` take any number of operands and keep their order. What a
condition says depends on the parameters only through which of them are truthy.
-/

namespace Stencil

/-- The condition of a branch. -/
inductive Condition where
  /-- The parameter is truthy. -/
  | param (name : String)
  /-- The operand does not hold. -/
  | not (operand : Condition)
  /-- Every operand holds. -/
  | and (operands : List Condition)
  /-- Some operand holds. -/
  | or (operands : List Condition)
  deriving Repr

namespace Condition

mutual

/-- Whether a condition holds when the truthy names are those that `truthy` accepts. -/
def holds (truthy : String → Bool) : Condition → Bool
  | param name => truthy name
  | not operand => !holds truthy operand
  | and operands => allHold truthy operands
  | or operands => anyHolds truthy operands

/-- Whether every condition of a list holds. -/
def allHold (truthy : String → Bool) : List Condition → Bool
  | [] => true
  | c :: cs => holds truthy c && allHold truthy cs

/-- Whether some condition of a list holds. -/
def anyHolds (truthy : String → Bool) : List Condition → Bool
  | [] => false
  | c :: cs => holds truthy c || anyHolds truthy cs

end

/-- One operand stands for itself; any other number is joined by `join`. -/
def combine (join : List Condition → Condition) : List Condition → Condition
  | [c] => c
  | cs => join cs

/-- A condition after a run of `not`s, which pair off: only whether their number is odd
matters. -/
def negate (odd : Bool) (c : Condition) : Condition := if odd then .not c else c

end Condition

end Stencil
