import Stencil.Toml

/-!
# Bare TOML values

A value that is neither a string, an array nor a table is a word: a truth value, an integer,
a floating point number, a date or a time. Single underscores may stand between the digits of
a number. An integer must fit into 64 bits, and a number that is too great to be finite is
refused unless it is negative.
-/

namespace Stencil

namespace Toml

/-- The value of a hexadecimal digit. -/
def digitValue (c : Char) : Nat :=
  if c.isDigit then c.toNat - 48
  else if 'a' ≤ c ∧ c ≤ 'f' then c.toNat - 87
  else c.toNat - 55

/-- A digit below `base`. -/
def isDigitOf (base : Nat) (c : Char) : Bool :=
  (c.isDigit || ('a' ≤ c && c ≤ 'f') || ('A' ≤ c && c ≤ 'F')) && digitValue c < base

/-- The digits of a run of digits in which single underscores may stand between two. -/
def ungroup? (base : Nat) : List Char → Option (List Char)
  | [] => none
  | [c] => if isDigitOf base c then some [c] else none
  | c :: '_' :: cs => if isDigitOf base c then (ungroup? base cs).map (c :: ·) else none
  | c :: cs => if isDigitOf base c then (ungroup? base cs).map (c :: ·) else none

/-- The number that digits stand for. -/
def numberOf (base : Nat) (digits : List Char) : Nat :=
  digits.foldl (fun n d => n * base + digitValue d) 0

/-- Whether a text begins with a minus, and the text after its sign. -/
def unsigned : List Char → Bool × List Char
  | '-' :: cs => (true, cs)
  | '+' :: cs => (false, cs)
  | cs => (false, cs)

/-- The digits of a decimal integer: no zero comes before another digit. -/
def wholeDigits? (cs : List Char) : Option (List Char) :=
  if cs.head? = some '0' ∧ cs ≠ ['0'] then none else ungroup? 10 cs

/-! ### Integers -/

/-- The integers that fit into 64 bits. -/
def fits (n : Int) : Bool := -9223372036854775808 ≤ n && n ≤ 9223372036854775807

/-- An integer with its base in front. -/
def basedInteger? (base : Nat) (cs : List Char) : Option Int := do
  let digits ← ungroup? base cs
  let n : Int := numberOf base digits
  if fits n then some n else none

/-- An integer. -/
def integer? (cs : List Char) : Option Int :=
  match cs with
  | '0' :: 'x' :: cs => basedInteger? 16 cs
  | '0' :: 'o' :: cs => basedInteger? 8 cs
  | '0' :: 'b' :: cs => basedInteger? 2 cs
  | cs => do
    let (negative, body) := unsigned cs
    let digits ← wholeDigits? body
    let n : Int := numberOf 10 digits
    let n := if negative then -n else n
    if fits n then some n else none

/-! ### Floating point numbers -/

/-- Digits and underscores. -/
def isGroupChar (c : Char) : Bool := c.isDigit || c == '_'

/-- The digits after the point, and the text after them. -/
def fraction? : List Char → Option (List Char × List Char)
  | '.' :: cs => do
    let digits ← ungroup? 10 (cs.takeWhile isGroupChar)
    return (digits, cs.dropWhile isGroupChar)
  | cs => some ([], cs)

/-- The exponent, which ends the number. -/
def exponent? : List Char → Option Int
  | [] => some 0
  | c :: cs => do
    if c ≠ 'e' ∧ c ≠ 'E' then none
    let (negative, body) := unsigned cs
    let digits ← ungroup? 10 body
    let n : Int := numberOf 10 digits
    return if negative then -n else n

/-- No number with more digits before the point is finite, and none with more zeros right
after it is greater than zero. -/
def magnitudeBound : Int := 400

/-- The number `digits * 10 ^ exponent`, rounded. -/
def realOf (negative : Bool) (digits : List Char) (exponent : Int) : Real :=
  let digits := digits.dropWhile (· == '0')
  let magnitude : Int := digits.length + exponent
  if digits.isEmpty || magnitude < -magnitudeBound then .finite (Binary64.zero negative)
  else if magnitudeBound < magnitude then .infinity negative
  else
    let n := numberOf 10 digits
    let x :=
      if 0 ≤ exponent then Binary64.ofRatio (n * Nat.pow 10 exponent.toNat) 1
      else Binary64.ofRatio n (Nat.pow 10 (-exponent).toNat)
    match x with
    | some x => .finite (x.withSign negative)
    | none => .infinity negative

/-- A floating point number: it has a point or an exponent. -/
def real? (cs : List Char) : Option Real := do
  let (negative, body) := unsigned cs
  if body = "inf".toList then return .infinity negative
  if body = "nan".toList then return .nan
  let rest := body.dropWhile isGroupChar
  if rest = [] then none
  let whole ← wholeDigits? (body.takeWhile isGroupChar)
  let (fraction, rest) ← fraction? rest
  let e ← exponent? rest
  match realOf negative (whole ++ fraction) (e - fraction.length) with
  | .infinity false => none
  | x => some x

/-! ### Dates and times -/

/-- The number of two digits, if it lies between two bounds. -/
def pair? (low high : Nat) (c d : Char) : Option Nat :=
  if c.isDigit && d.isDigit then
    let n := digitValue c * 10 + digitValue d
    if low ≤ n ∧ n ≤ high then some n else none
  else none

/-- The number of days of a month. -/
def daysIn (year month : Nat) : Nat :=
  if month = 2 then
    if year % 4 = 0 ∧ (year % 100 ≠ 0 ∨ year % 400 = 0) then 29 else 28
  else if month = 4 ∨ month = 6 ∨ month = 9 ∨ month = 11 then 30
  else 31

/-- The text after a date, if there is one at the front. -/
def afterDate? : List Char → Option (List Char)
  | a :: b :: c :: d :: '-' :: m :: n :: '-' :: x :: y :: rest => do
    if !([a, b, c, d].all Char.isDigit) then none
    let year := numberOf 10 [a, b, c, d]
    let month ← pair? 1 12 m n
    let _ ← pair? 1 (daysIn year month) x y
    return rest
  | _ => none

/-- The text after a time, if there is one at the front. -/
def afterTime? : List Char → Option (List Char)
  | a :: b :: ':' :: c :: d :: ':' :: x :: y :: rest => do
    let _ ← pair? 0 23 a b
    let _ ← pair? 0 59 c d
    let _ ← pair? 0 60 x y
    match rest with
    | '.' :: f =>
      if (f.takeWhile Char.isDigit).isEmpty then none else some (f.dropWhile Char.isDigit)
    | _ => some rest
  | _ => none

/-- Whether a text is an offset from universal time, or empty. -/
def isOffset : List Char → Bool
  | [] => true
  | ['Z'] => true
  | ['z'] => true
  | [s, a, b, ':', c, d] =>
    (s == '+' || s == '-') && (pair? 0 23 a b).isSome && (pair? 0 59 c d).isSome
  | _ => false

/-- Whether a text is a time, perhaps with an offset. -/
def isOffsetTime (cs : List Char) : Bool := (afterTime? cs).any isOffset

/-- Whether a text is a date and nothing more. -/
def isDate (cs : List Char) : Bool := afterDate? cs == some []

/-- Whether a text is a date, a time or both. -/
def isDateTime (cs : List Char) : Bool :=
  match afterDate? cs with
  | some [] => true
  | some (c :: rest) => (c == 'T' || c == 't') && isOffsetTime rest
  | none => afterTime? cs == some []

/-! ### Words -/

/-- The characters of words. -/
def isWordChar (c : Char) : Bool :=
  c.isAlphanum || c == '_' || c == '+' || c == '-' || c == '.' || c == ':'

/-- The value that a word stands for. -/
def ofWord? (cs : List Char) : Option Toml :=
  if cs = "true".toList then some (boolean true)
  else if cs = "false".toList then some (boolean false)
  else if isDateTime cs then some dateTime
  else
    match integer? cs with
    | some n => some (integer n)
    | none => (real? cs).map float

end Toml

end Stencil
