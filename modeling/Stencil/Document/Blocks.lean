import Stencil.Document
import Stencil.Item

/-!
# Putting blocks together

The items of a template become a document by descending into each `if` block. A block
of nodes runs to the first `elif`, `else` or `endif` that belongs to no block inside it,
or to the end of the items; a conditional reads blocks until its `endif`. Blocks may nest
only so deep, and each misplaced directive is reported where it stands, but an `if`
without an `endif` at the `if`.
-/

namespace Stencil

/-- A directive that ends a block of nodes. -/
inductive Terminator where
  /-- `elif`, with its condition. -/
  | elifT (condition : Spanned Condition)
  /-- `else`. -/
  | elseT
  /-- `endif`. -/
  | endifT
  deriving Repr

/-- The word of a terminator. -/
def Terminator.keyword : Terminator → Keyword
  | elifT _ => .elifK
  | elseT => .elseK
  | endifT => .endifK

namespace Document

/-- A block of nodes, the terminator that ends it, if any does, and the items after that,
all read from `n` items. -/
structure Block (n : Nat) where
  /-- The nodes of the block. -/
  nodes : List Node
  /-- What ends the block; nothing if the items ran out. -/
  terminator : Option (Spanned Terminator)
  /-- The items after the terminator. -/
  rest : List (Spanned Item)
  /-- The terminator and the items after it are among those that were there. -/
  length_rest_add_le : rest.length + terminator.toList.length ≤ n

namespace Block

/-- One more node at the front, read before the block. -/
def cons {n m : Nat} (node : Node) (b : Block n) (h : n ≤ m) : Block m :=
  ⟨node :: b.nodes, b.terminator, b.rest, Nat.le_trans b.length_rest_add_le h⟩

/-- The items after a block are among those that were there. -/
theorem length_rest_le {n : Nat} (b : Block n) : b.rest.length ≤ n :=
  Nat.le_trans (Nat.le_add_right _ _) b.length_rest_add_le

/-- A block that a terminator ends takes at least that. -/
theorem length_rest_lt {n : Nat} {b : Block n} {t : Spanned Terminator}
    (h : b.terminator = some t) : b.rest.length < n := by
  have := b.length_rest_add_le
  simp only [h, Option.toList_some, List.length_singleton] at this
  omega

end Block

/-- The branches of a conditional, its last part, the offset where its `endif` ends, and at
most `n` items after it. -/
structure Tail (n : Nat) where
  /-- The branches. -/
  branches : List Branch
  /-- The part after `else`. -/
  otherwise : Option (List Node)
  /-- Where the `endif` ends. -/
  stop : Nat
  /-- The items after the `endif`. -/
  rest : List (Spanned Item)
  /-- The items after the `endif` are among those that were there. -/
  length_rest_le : rest.length ≤ n

mutual

/-- Reads nodes up to a terminator, inside `depth` open blocks. -/
def block (limit depth : Nat) (items : List (Spanned Item)) :
    Except ParseError (Block items.length) :=
  match items with
  | [] => .ok ⟨[], none, [], by simp⟩
  | ⟨item, span⟩ :: rest =>
    match item with
    | .text value => do
      let more ← block limit depth rest
      return more.cons (.literal value span) (Nat.le_succ _)
    | .interpolation name => do
      let more ← block limit depth rest
      return more.cons (.interpolation name span) (Nat.le_succ _)
    | .directive (.includeD path) => do
      let more ← block limit depth rest
      return more.cons (.inclusion path span) (Nat.le_succ _)
    | .directive (.ifD condition) =>
      if limit ≤ depth then .error ⟨.tooDeep limit, span⟩
      else do
        let tail ← conditional limit (depth + 1) span condition rest
        let more ← block limit depth tail.rest
        return more.cons (.conditional tail.branches tail.otherwise ⟨span.start, tail.stop⟩)
          (Nat.le_succ_of_le tail.length_rest_le)
    | .directive (.elifD condition) => .ok ⟨[], some ⟨.elifT condition, span⟩, rest, Nat.le_refl _⟩
    | .directive .elseD => .ok ⟨[], some ⟨.elseT, span⟩, rest, Nat.le_refl _⟩
    | .directive .endifD => .ok ⟨[], some ⟨.endifT, span⟩, rest, Nat.le_refl _⟩
termination_by (items.length, 0)
decreasing_by
  · exact Prod.Lex.left _ _ (by simp)
  · exact Prod.Lex.left _ _ (by simp)
  · exact Prod.Lex.left _ _ (by simp)
  · exact Prod.Lex.left _ _ (by simp)
  · exact Prod.Lex.left _ _ (Nat.lt_succ_of_le tail.length_rest_le)

/-- Reads the branches of a conditional whose `if` stands at `opening`, from the items
after its condition. -/
def conditional (limit depth : Nat) (opening : Span) (condition : Spanned Condition)
    (items : List (Spanned Item)) : Except ParseError (Tail items.length) := do
  let body ← block limit depth items
  let branch : Branch := .mk condition.node condition.span body.nodes
  match _h : body.terminator with
  | none => .error ⟨.missingEndif, opening⟩
  | some ⟨.endifT, span⟩ => return ⟨[branch], none, span.stop, body.rest, body.length_rest_le⟩
  | some ⟨.elifT next, _⟩ =>
    let tail ← conditional limit depth opening next body.rest
    return ⟨branch :: tail.branches, tail.otherwise, tail.stop, tail.rest,
      Nat.le_trans tail.length_rest_le body.length_rest_le⟩
  | some ⟨.elseT, _⟩ =>
    let last ← block limit depth body.rest
    match last.terminator with
    | none => .error ⟨.missingEndif, opening⟩
    | some ⟨.endifT, span⟩ =>
      return ⟨[branch], some last.nodes, span.stop, last.rest,
        Nat.le_trans last.length_rest_le body.length_rest_le⟩
    | some other => .error ⟨.afterElse other.node.keyword, other.span⟩
termination_by (items.length, 1)
decreasing_by
  · exact Prod.Lex.right _ (by simp)
  · exact Prod.Lex.left _ _ (Block.length_rest_lt _h)
  · exact Prod.Lex.left _ _ (Block.length_rest_lt _h)

end

end Document

end Stencil
