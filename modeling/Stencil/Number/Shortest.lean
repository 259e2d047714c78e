import Stencil.Number.Binary64

/-!
# Shortest decimals

The decimal text of a floating point number has the fewest digits that read back as that
number, and of those the nearest to it. `Decimal.shortest` finds the digits: it tries one
digit, two digits and so on up to seventeen, and for each number of digits the two decimals
around the number. `DecimalLayout` says how digits become text: for which exponents the
notation is positional.
-/

namespace Stencil

/-- The decimal `digits * 10 ^ exponent`. -/
structure Decimal where
  /-- The digits as one number. -/
  digits : Nat
  /-- The power of ten they are scaled by. -/
  exponent : Int
  deriving DecidableEq, Repr

namespace Decimal

/-- The same decimal with no zeros at the end of its digits, if at most `fuel` of them have
to go. -/
def trim : Nat → Decimal → Decimal
  | 0, d => d
  | fuel + 1, d =>
    if d.digits ≠ 0 ∧ d.digits % 10 = 0 then trim fuel ⟨d.digits / 10, d.exponent + 1⟩ else d

/-- `num / den / 10 ^ e` as a ratio. -/
def scale (num den : Nat) (e : Int) : Nat × Nat :=
  if 0 ≤ e then (num, den * Nat.pow 10 e.toNat) else (num * Nat.pow 10 (-e).toNat, den)

/-- A number and the bounds of what rounds to it, as numerators over one denominator. -/
structure Interval where
  /-- The lower bound. -/
  low : Nat
  /-- The number itself. -/
  value : Nat
  /-- The upper bound. -/
  high : Nat
  /-- The denominator of all three. -/
  den : Nat
  /-- Whether the bounds round to the number too. -/
  closed : Bool

/-- What rounds to a number that is not zero. Below a power of two the neighbours are half
as far away as above it, but for the least exponent. -/
def Interval.of (x : Binary64) : Interval :=
  let m := x.significand
  let below :=
    if m = Nat.pow 2 (Binary64.precision - 1) ∧ x.exponent ≠ Binary64.minExponent then 1 else 2
  let (n, d) := Binary64.ratio ⟨false, 1, x.exponent⟩
  ⟨(4 * m - below) * n, 4 * m * n, (4 * m + 2) * n, 4 * d, m % 2 == 0⟩

/-- Whether `c * 10 ^ e` lies in the interval. -/
def Interval.contains (i : Interval) (c : Nat) (e : Int) : Bool :=
  let (n, d) := if 0 ≤ e then (c * Nat.pow 10 e.toNat, 1) else (c, Nat.pow 10 (-e).toNat)
  let x := n * i.den
  (i.low * d < x && x < i.high * d) || (i.closed && (x == i.low * d || x == i.high * d))

/-- The decimal with the digits of `10 ^ e` that is nearest to the number, of the two around
it and if it lies in the interval. -/
def Interval.candidate? (i : Interval) (e : Int) : Option Decimal :=
  let (n, d) := scale i.value i.den e
  let below := n / d
  let r := n % d
  let upFirst := decide (d < 2 * r ∨ (2 * r = d ∧ below % 2 = 1))
  let (first, second) := if upFirst then (below + 1, below) else (below, below + 1)
  if first ≠ 0 ∧ i.contains first e then some ⟨first, e⟩
  else if second ≠ 0 ∧ i.contains second e then some ⟨second, e⟩
  else none

/-- The first candidate, with the power of ten going down from `e`. -/
def Interval.search (i : Interval) : (tries : Nat) → Int → Decimal
  | 0, e =>
    let (n, d) := scale i.value i.den e
    ⟨n / d, e⟩
  | tries + 1, e => (i.candidate? e).getD (search i tries (e - 1))

/-- The greatest power of ten that is worth trying: no greater one lies below the upper
bound. -/
def Interval.topExponent (i : Interval) : Int :=
  let bits : Int := (Nat.log2 i.high : Int) - Nat.log2 i.den + 1
  -- 30103 / 100000 is a little more than the logarithm of two
  if 0 ≤ bits then bits * 30103 / 100000 + 1 else bits * 30102 / 100000 + 1

/-- The digits of a number, its sign apart. -/
def shortest (x : Binary64) : Decimal :=
  if x.isZero then ⟨0, 0⟩
  else
    let i := Interval.of x
    (i.search 25 i.topExponent).trim 25

end Decimal

/-- How the digits of a number become text. -/
structure DecimalLayout where
  /-- The notation is positional when the exponent of the first digit lies from the first of
  these up to the second; without them it always is. -/
  positional : Option (Int × Int)

namespace DecimalLayout

/-- `n` zeros. -/
def zeros (n : Nat) : List Char := List.replicate n '0'

/-- Digits with a point: at least one digit stands on either side of it. -/
def positionalText (digits : List Char) (exponent : Int) : List Char :=
  let n : Int := digits.length
  if 0 ≤ exponent then digits ++ zeros exponent.toNat ++ ['.', '0']
  else if 0 < n + exponent then
    let whole := (n + exponent).toNat
    digits.take whole ++ '.' :: digits.drop whole
  else ['0', '.'] ++ zeros (-(n + exponent)).toNat ++ digits

/-- Digits with a point after the first and the exponent of the first, which always has a
sign. -/
def scientificText (digits : List Char) (lead : Int) : List Char :=
  let fraction := match digits with
    | d :: e :: rest => d :: '.' :: e :: rest
    | short => short
  fraction ++ 'e' :: (if 0 ≤ lead then '+' else '-') :: (toString lead.natAbs).toList

/-- The text of a number. -/
def text (layout : DecimalLayout) (x : Binary64) : String :=
  let d := Decimal.shortest x
  let digits := (toString d.digits).toList
  let lead : Int := digits.length + d.exponent - 1
  let body :=
    match layout.positional with
    | some (low, high) =>
      if low ≤ lead ∧ lead ≤ high then positionalText digits d.exponent
      else scientificText digits lead
    | none => positionalText digits d.exponent
  String.ofList (if x.negative then '-' :: body else body)

end DecimalLayout

end Stencil
