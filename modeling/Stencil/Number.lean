import Stencil.Number.Shortest

/-!
# Numbers

A number of a request is an integer or a floating point number, and stays what it was
written as. Its text is the text of the integer, or the shortest decimal that reads back,
in positional notation from `0.00001` up to below `10 ^ 16`.

A number with a fraction, with an exponent or out of the range of 64-bit integers becomes
a floating point number from up to twenty leading digits gathered into a 64-bit integer: that
is rounded, and then multiplied or divided by a rounded power of ten.
-/

namespace Stencil

/-- A number of a request. -/
inductive Number where
  /-- An integer. -/
  | int (value : Int)
  /-- A floating point number. -/
  | float (value : Binary64)
  deriving DecidableEq, Repr

namespace Number

/-- Floating point numbers are positional from the fifth place after the point to the
sixteenth before it. -/
def layout : DecimalLayout := ⟨some (-5, 15)⟩

/-- The text of a number. -/
def text : Number → String
  | int n => toString n
  | float x => layout.text x

/-- The greatest unsigned 64-bit integer. -/
def maxWord : Nat := 18446744073709551615

/-- The magnitude of the least signed 64-bit integer. -/
def minSigned : Nat := 9223372036854775808

/-- The greatest power of ten that is a floating point number. -/
def maxPower : Nat := 308

/-- The floating point number nearest to `10 ^ n`, for `n` up to `maxPower`. -/
def power (n : Nat) : Binary64 := (Binary64.ofRatio (Nat.pow 10 n) 1).getD (.zero false)

/-- `x * 10 ^ e` in one multiplication, or in divisions of which all but the last are by the
greatest power; nothing if it is not finite. -/
def scaled (x : Binary64) (e : Int) : Option Binary64 :=
  if 0 ≤ e then
    if x.isZero then some x
    else if e ≤ maxPower then x.mul? (power e.toNat)
    else none
  else if _h : -e ≤ maxPower then x.div? (power (-e).toNat)
  else if x.isZero then some x
  else (x.div? (power maxPower)).bind fun y => scaled y (e + maxPower)
termination_by (-e).toNat
decreasing_by
  have : 0 < maxPower := by decide
  omega

/-- The floating point number `digits * 10 ^ exponent` with the given sign; nothing if it is
not finite. -/
def ofParts (negative : Bool) (digits : Nat) (exponent : Int) : Option Binary64 := do
  let x ← Binary64.ofRatio digits 1
  let y ← scaled x exponent
  return y.withSign negative

/-- The number that digits with no fraction and no exponent stand for. A negative zero, and
what is less than every signed 64-bit integer, is a floating point number. -/
def ofWhole (negative : Bool) (digits : Nat) : Number :=
  if !negative then int digits
  else if digits = 0 ∨ minSigned < digits then
    float (((Binary64.ofRatio digits 1).getD (.zero false)).withSign true)
  else int (-digits)

end Number

end Stencil
