import Stencil.Condition
import Stencil.ParseError

/-!
# Reading conditions

A condition is read in one pass over its tokens. `not` binds tighter than `and`, and
`and` tighter than `or`; parentheses group, and a name stands for a parameter with or
without its `$`. At every point either an operand is due or one is complete, and that
and the number of open parentheses decide which tokens may come next: the first token
that may not is the one an error is blamed on.

Parentheses nested deeper than the limit are refused before anything else is looked at.
-/

namespace Stencil

namespace Condition

/-! ### The limit on parentheses -/

/-- The first opening parenthesis that stands more than `limit` deep. A closing one with
none open changes nothing. -/
def firstTooDeep (limit : Nat) : Nat → List (Spanned Token) → Option Span
  | _, [] => none
  | depth, t :: ts =>
    if t.node = .parenOpen then
      if limit < depth + 1 then some t.span else firstTooDeep limit (depth + 1) ts
    else if t.node = .parenClose then firstTooDeep limit (depth - 1) ts
    else firstTooDeep limit depth ts

/-! ### One level of parentheses -/

/-- What has been read at one level of parentheses. -/
structure Level where
  /-- The finished operands of `or`, last first. -/
  disjuncts : List Condition
  /-- The finished operands of the `and` that is being read, last first. -/
  conjuncts : List Condition
  /-- Whether an odd number of `not`s stands before the operand that is due. -/
  negated : Bool
  deriving Repr

namespace Level

/-- Nothing has been read. -/
def empty : Level := ⟨[], [], false⟩

/-- One more `not` before the operand that is due. -/
def not (l : Level) : Level := { l with negated := !l.negated }

/-- The operand that was due. -/
def operand (l : Level) (c : Condition) : Level :=
  ⟨l.disjuncts, negate l.negated c :: l.conjuncts, false⟩

/-- The `and` that was being read is over. -/
def disjunct (l : Level) : Level :=
  ⟨combine .and l.conjuncts.reverse :: l.disjuncts, [], false⟩

/-- What was read at the level, once it is over. -/
def condition (l : Level) : Condition := combine .or l.disjunct.disjuncts.reverse

end Level

/-! ### The reader -/

/-- What may come where an operand is due, names apart. -/
def operandExpected : List Expected := [.token .notOp, .token .parenOpen]

/-- What may come after a complete operand, where `depth` parentheses are open. -/
def operatorExpected (depth : Nat) : List Expected :=
  [.token .andOp, .token .orOp, .token (if depth = 0 then .directiveClose else .parenClose)]

/-- The parameter that a token names. -/
def name? : Token → Option String
  | .var s | .ident s => some s
  | _ => none

/-- Reads on from the levels that stand open, innermost first, and the current one.
`due` says that an operand is due; `ending` is the span blamed when the tokens stop too
early. -/
def read (ending : Span) : List Level → Level → (due : Bool) → List (Spanned Token) →
    Except ParseError Condition
  | _, _, true, [] => .error ⟨.unexpectedEnd operandExpected, ending⟩
  | [], level, false, [] => .ok level.condition
  | outer :: levels, _, false, [] =>
    .error ⟨.unexpectedEnd (operatorExpected (outer :: levels).length), ending⟩
  | levels, level, true, t :: ts =>
    match name? t.node with
    | some name => read ending levels (level.operand (.param name)) false ts
    | none =>
      if t.node = .notOp then read ending levels level.not true ts
      else if t.node = .parenOpen then read ending (level :: levels) .empty true ts
      else .error ⟨.unexpectedToken t.node operandExpected, t.span⟩
  | levels, level, false, t :: ts =>
    if t.node = .andOp then read ending levels level true ts
    else if t.node = .orOp then read ending levels level.disjunct true ts
    else
      match levels with
      | [] => .error ⟨.unexpectedToken t.node (operatorExpected 0), t.span⟩
      | outer :: levels =>
        if t.node = .parenClose then read ending levels (outer.operand level.condition) false ts
        else .error
          ⟨.unexpectedToken t.node (operatorExpected (outer :: levels).length), t.span⟩

/-- A condition ends where an operand is complete and nothing is open. -/
theorem read_end (ending : Span) (level : Level) :
    read ending [] level false [] = .ok level.condition := by
  rw [read]

/-- From the start of the first token to the end of the last. -/
def extent? : List (Spanned Token) → Option Span
  | [] => none
  | t :: ts => some ⟨t.span.start, ((t :: ts).getLast (by simp)).span.stop⟩

/-- Reads the condition of the directive headed by `keyword`, which stands at `head`. The
close marker begins at `closing`, and parentheses may nest `limit` deep. -/
def parse (limit : Nat) (keyword : Keyword) (head : Span) (closing : Nat)
    (args : List (Spanned Token)) : Except ParseError (Spanned Condition) :=
  match extent? args with
  | none => .error ⟨.conditionExpected keyword, head⟩
  | some extent =>
    match firstTooDeep limit 0 args with
    | some span => .error ⟨.tooDeep limit, span⟩
    | none => do
      let condition ← read ⟨closing, extent.stop⟩ [] .empty true args
      return ⟨condition, extent⟩

end Condition

end Stencil
