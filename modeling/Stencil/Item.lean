import Stencil.Condition.Parse

/-!
# Items

The tokens of a template collapse into items: literal text, an interpolation, or a
directive with its arguments. An interpolation holds exactly one variable, a directive
begins with one of the five keywords, and the first item that does not keep to its form
is reported.
-/

namespace Stencil

/-- A directive and its arguments. -/
inductive Directive where
  /-- `if` opens a block. -/
  | ifD (condition : Spanned Condition)
  /-- `elif` starts another branch. -/
  | elifD (condition : Spanned Condition)
  /-- `else` starts the last part of a block. -/
  | elseD
  /-- `endif` closes a block. -/
  | endifD
  /-- `include` names another template. -/
  | includeD (path : String)
  deriving Repr

/-- What a template is made of before its blocks are put together. -/
inductive Item where
  /-- Literal text. -/
  | text (value : String)
  /-- The value of a parameter. -/
  | interpolation (name : String)
  /-- A directive. -/
  | directive (d : Directive)
  deriving Repr

namespace Item

/-- The tokens before the first `close`, the offset where `close` ends, and the tokens after
it; `stop` is the offset so far. -/
def untilClose (close : Token) :
    (stop : Nat) → List (Spanned Token) → List (Spanned Token) × Nat × List (Spanned Token)
  | stop, [] => ([], stop, [])
  | _, t :: ts =>
    if t.node = close then ([], t.span.stop, ts)
    else
      let (inner, stop, rest) := untilClose close t.span.stop ts
      (t :: inner, stop, rest)

theorem length_untilClose_le (close : Token) (stop : Nat) (ts : List (Spanned Token)) :
    (untilClose close stop ts).2.2.length ≤ ts.length := by
  induction ts generalizing stop with
  | nil => simp [untilClose]
  | cons t ts ih =>
    simp only [untilClose]
    split
    · simp
    · simpa using Nat.le_succ_of_le (ih t.span.stop)

/-- A keyword that must stand alone. -/
def alone (keyword : Keyword) (d : Directive) (args : List (Spanned Token)) :
    Except ParseError Directive :=
  match Condition.extent? args with
  | none => .ok d
  | some span => .error ⟨.takesNoArguments keyword, span⟩

/-- The directive that the tokens between the markers make; `full` spans it, markers and all. -/
def directive? (limit : Nat) (full : Span) : List (Spanned Token) → Except ParseError Directive
  | [] => .error ⟨.emptyDirective, full⟩
  | head :: args =>
    let closing := full.stop - Construct.markSize
    match head.node with
    | .keyword .ifK => Directive.ifD <$> Condition.parse limit .ifK head.span closing args
    | .keyword .elifK => Directive.elifD <$> Condition.parse limit .elifK head.span closing args
    | .keyword .elseK => alone .elseK .elseD args
    | .keyword .endifK => alone .endifK .endifD args
    | .keyword .includeK =>
      match args with
      | [⟨.string path, _⟩] => .ok (.includeD path)
      | _ => .error ⟨.pathExpected, (Condition.extent? args).getD head.span⟩
    | other => .error ⟨.unknownDirective other, head.span⟩

/-- The item that begins with an opening marker. -/
def construct? (limit : Nat) (full : Span) (inner : List (Spanned Token)) :
    Construct → Except ParseError Item
  | .interpolation =>
    match inner with
    | [⟨.var name, _⟩] => .ok (.interpolation name)
    | _ => .error ⟨.invalidInterpolation, full⟩
  | .directive => Item.directive <$> directive? limit full inner

/-- The construct that a token opens. -/
def opened? : Token → Option Construct
  | .directiveOpen => some .directive
  | .interpolationOpen => some .interpolation
  | _ => none

/-- The items of a token list. -/
def ofTokens (limit : Nat) : List (Spanned Token) → Except ParseError (List (Spanned Item))
  | [] => .ok []
  | t :: ts =>
    match t.node, opened? t.node with
    | .text value, _ => do
      let more ← ofTokens limit ts
      return ⟨.text value, t.span⟩ :: more
    | _, some k =>
      let parts := untilClose k.closeToken t.span.stop ts
      let full : Span := ⟨t.span.start, parts.2.1⟩
      do
        let item ← construct? limit full parts.1 k
        let more ← ofTokens limit parts.2.2
        return ⟨item, full⟩ :: more
    | _, none => .error ⟨.strayToken t.node, t.span⟩
termination_by ts => ts.length
decreasing_by
  · simp
  · simpa [parts] using Nat.lt_succ_of_le (length_untilClose_le k.closeToken t.span.stop ts)

end Item

end Stencil
