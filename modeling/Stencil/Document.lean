import Stencil.Condition
import Stencil.Span

/-!
# Documents

A parsed template: a list of nodes, each with the span it was read from. A conditional
has branches, each with a condition and a body, and perhaps a body for when none of
them is taken.
-/

namespace Stencil

mutual

/-- A node of a document. -/
inductive Node where
  /-- Literal text. -/
  | literal (text : String) (span : Span)
  /-- The value of a parameter. -/
  | interpolation (name : String) (span : Span)
  /-- The template that `path` names. -/
  | inclusion (path : String) (span : Span)
  /-- The body of the first branch whose condition holds, else `otherwise`. -/
  | conditional (branches : List Branch) (otherwise : Option (List Node)) (span : Span)

/-- A branch of a conditional. -/
inductive Branch where
  /-- The condition, where it stands, and the body. -/
  | mk (condition : Condition) (conditionSpan : Span) (body : List Node)

end

/-- A parsed template. -/
structure Document where
  /-- Its nodes in order. -/
  nodes : List Node

namespace Branch

/-- The condition of a branch. -/
def condition : Branch → Condition
  | mk c _ _ => c

/-- Where the condition of a branch stands. -/
def conditionSpan : Branch → Span
  | mk _ s _ => s

/-- The body of a branch. -/
def body : Branch → List Node
  | mk _ _ b => b

end Branch

/-- Where a node was read. -/
def Node.span : Node → Span
  | literal _ s | interpolation _ s | inclusion _ s | conditional _ _ s => s

end Stencil
