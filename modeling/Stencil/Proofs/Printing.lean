import Mathlib.Data.List.Chain
import Stencil.Proofs.Document.Moving

/-!
# Printing a document

A document is written out stage by stage: its nodes as items, the items as tokens, the tokens as
text. Inside the markers there are blanks after every token, as many as the style says but at
least one, and a path stands between the quotes that the style says. Operands that are no names
are put in parentheses.

`Document.Formed` says which documents a template can stand for at all, and
`Document.NestsWithin` that conditionals and parentheses nest only so deep.
-/

namespace Stencil

/-! ### Style -/

/-- Blanks, at least one. -/
structure Gap where
  /-- The blanks. -/
  text : List Char
  /-- There is a blank. -/
  text_ne_nil : text ≠ []
  /-- There is nothing else. -/
  isBlank_of_mem : ∀ c ∈ text, isBlank c

/-- The quotes that a string may stand between. -/
inductive Quote where
  /-- `'`. -/
  | single
  /-- `"`. -/
  | double
  deriving DecidableEq, Repr

/-- The quote as it is written. -/
def Quote.mark : Quote → Char
  | single => '\x27'
  | double => '\x22'

/-- How tokens are written, by the number of each in the template. -/
structure Style where
  /-- The blanks after a token that stands inside markers or opens a construct. -/
  gap : Nat → Gap
  /-- The quotes of a token that is a string. -/
  quote : Nat → Quote

/-! ### Tokens -/

namespace Token

/-- A backslash before each backslash and each quote `q`. -/
def escape (q : Char) (cs : List Char) : List Char :=
  cs.flatMap fun c => if c = '\\' ∨ c = q then ['\\', c] else [c]

/-- A token as it is written. -/
def written (q : Quote) : Token → List Char
  | directiveOpen => ['[', '%']
  | directiveClose => ['%', ']']
  | interpolationOpen => ['[', '[']
  | interpolationClose => [']', ']']
  | keyword k => k.word.toList
  | notOp => ['n', 'o', 't']
  | andOp => ['a', 'n', 'd']
  | orOp => ['o', 'r']
  | parenOpen => ['(']
  | parenClose => [')']
  | var name => '$' :: name.toList
  | ident name => name.toList
  | string value => q.mark :: escape q.mark value.toList ++ [q.mark]
  | text value => value.toList

/-- Whether blanks come after a token: not after literal text, nor after a construct is closed. -/
def spaced : Token → Bool
  | text _ | directiveClose | interpolationClose => false
  | _ => true

/-- The text of tokens, the first of which has number `n`. -/
def write (style : Style) : Nat → List Token → List Char
  | _, [] => []
  | n, t :: ts => t.written (style.quote n) ++ (if t.spaced then (style.gap n).text else []) ++
      write style (n + 1) ts

end Token

/-! ### Conditions -/

namespace Condition

/-- The tokens of a condition as an operand, in parentheses unless it is a name. -/
def wrap (c : Condition) (ts : List Token) : List Token :=
  match c with
  | param _ => ts
  | _ => .parenOpen :: (ts ++ [.parenClose])

mutual

/-- The tokens of a condition. -/
def tokens : Condition → List Token
  | param name => [.var name]
  | not c => .notOp :: wrap c (tokens c)
  | and cs => (operandTokens .andOp cs).tail
  | or cs => (operandTokens .orOp cs).tail

/-- The tokens of operands, the operator `op` before each. -/
def operandTokens (op : Token) : List Condition → List Token
  | [] => []
  | c :: cs => op :: (wrap c (tokens c) ++ operandTokens op cs)

end

/-- How deep parentheses nest in a condition as an operand, if they nest `n` deep in it. -/
def wrapDepth (c : Condition) (n : Nat) : Nat :=
  match c with
  | param _ => n
  | _ => n + 1

mutual

/-- How deep parentheses nest in a condition. -/
def parenDepth : Condition → Nat
  | param _ => 0
  | not c => wrapDepth c (parenDepth c)
  | and cs => operandDepth cs
  | or cs => operandDepth cs

/-- How deep parentheses nest in operands. -/
def operandDepth : List Condition → Nat
  | [] => 0
  | c :: cs => max (wrapDepth c (parenDepth c)) (operandDepth cs)

end

/-- A letter or an underscore, then letters, digits, underscores, dots and hyphens. -/
def IsName (name : String) : Prop :=
  ∃ c cs, name = String.ofList (c :: cs) ∧ isNameStart c ∧ ∀ d ∈ cs, isNameChar d

/-- A condition that a template can stand for: its names are names, and nothing is joined that
has not two parts. -/
inductive Formed : Condition → Prop where
  /-- A parameter. -/
  | param {name : String} (h : IsName name) : Formed (.param name)
  /-- A negation. -/
  | not {c : Condition} (h : Formed c) : Formed (.not c)
  /-- Operands of `and`. -/
  | and {cs : List Condition} (hl : 2 ≤ cs.length) (h : ∀ c ∈ cs, Formed c) : Formed (.and cs)
  /-- Operands of `or`. -/
  | or {cs : List Condition} (hl : 2 ≤ cs.length) (h : ∀ c ∈ cs, Formed c) : Formed (.or cs)

end Condition

/-! ### Items -/

/-- What was read nowhere in particular. -/
def Spanned.bare {α : Type} (a : α) : Spanned α := ⟨a, 0, 0⟩

/-- Tokens between the markers of a construct. -/
def Construct.enclose (k : Construct) (inner : List Token) : List Token :=
  k.openToken :: (inner ++ [k.closeToken])

/-- The tokens between the markers of a directive. -/
def Directive.inner : Directive → List Token
  | .ifD c => .keyword .ifK :: c.node.tokens
  | .elifD c => .keyword .elifK :: c.node.tokens
  | .elseD => [.keyword .elseK]
  | .endifD => [.keyword .endifK]
  | .includeD path => [.keyword .includeK, .string path]

/-- The tokens of an item. -/
def Item.tokens : Item → List Token
  | .text s => [.text s]
  | .interpolation name => Construct.interpolation.enclose [.var name]
  | .directive d => Construct.directive.enclose d.inner

/-! ### Documents -/

mutual

/-- The items of a node. -/
def Node.items : Node → List Item
  | .literal s _ => [.text s]
  | .interpolation name _ => [.interpolation name]
  | .inclusion path _ => [.directive (.includeD path)]
  | .conditional branches otherwise _ =>
    Branch.allItems .ifD branches ++ (Node.lastItems otherwise ++ [.directive .endifD])

/-- The items of a branch with the directive that `head` makes of its condition. -/
def Branch.items (head : Spanned Condition → Directive) : Branch → List Item
  | .mk c _ body => .directive (head (.bare c)) :: Node.allItems body

/-- The items of branches, the first with the directive that `head` makes and the others with
`elif`. -/
def Branch.allItems (head : Spanned Condition → Directive) : List Branch → List Item
  | [] => []
  | b :: bs => Branch.items head b ++ Branch.allItems .elifD bs

/-- The items of the part after `else`, if there is one. -/
def Node.lastItems : Option (List Node) → List Item
  | none => []
  | some ns => .directive .elseD :: Node.allItems ns

/-- The items of nodes. -/
def Node.allItems : List Node → List Item
  | [] => []
  | n :: ns => Node.items n ++ Node.allItems ns

end

/-- The text of a document. -/
def Document.print (style : Style) (d : Document) : String :=
  String.ofList (Token.write style 0 ((Node.allItems d.nodes).flatMap Item.tokens))

/-! ### What can be printed -/

/-- Whether a node is literal text. -/
def Node.isLiteral : Node → Bool
  | .literal _ _ => true
  | _ => false

/-- No two nodes side by side are literal text. -/
def Node.Separate (ns : List Node) : Prop := ns.IsChain fun a b => ¬ (a.isLiteral ∧ b.isLiteral)

/-- A node that is no literal text ending in `[`. -/
def Node.Sealed (n : Node) : Prop := ∀ s span, n = .literal s span → s.toList.getLast? ≠ some '['

/-- Literal text that a template can hold: some, with no opening marker in it. -/
def IsLiteralText (s : String) : Prop := s ≠ "" ∧ ∀ k : Construct, ¬ k.openText <:+: s.toList

/-- A node that a template can stand for. Literal text is none where it would end in `[` before a
directive, nor where there would be more literal text beside it. -/
inductive Node.Formed : Node → Prop where
  /-- Literal text. -/
  | literal {s : String} {span : Span} (h : IsLiteralText s) : Formed (.literal s span)
  /-- The value of a parameter. -/
  | interpolation {name : String} {span : Span} (h : Condition.IsName name) :
      Formed (.interpolation name span)
  /-- An include, of any path. -/
  | inclusion {path : String} {span : Span} : Formed (.inclusion path span)
  /-- A conditional with a branch. -/
  | conditional {branches : List Branch} {otherwise : Option (List Node)} {span : Span}
      (hb : branches ≠ [])
      (hc : ∀ b ∈ branches, b.condition.Formed)
      (hn : ∀ b ∈ branches, ∀ n ∈ b.body, Formed n)
      (hs : ∀ b ∈ branches, Node.Separate b.body ∧ ∀ n ∈ b.body, n.Sealed)
      (hno : ∀ ns ∈ otherwise, ∀ n ∈ ns, Formed n)
      (hso : ∀ ns ∈ otherwise, Node.Separate ns ∧ ∀ n ∈ ns, n.Sealed) :
      Formed (.conditional branches otherwise span)

/-- A document that a template can stand for. Only at its very end may literal text end in `[`. -/
structure Document.Formed (d : Document) : Prop where
  /-- Its nodes are formed. -/
  nodes : ∀ n ∈ d.nodes, n.Formed
  /-- No two of them side by side are literal text. -/
  separate : Node.Separate d.nodes
  /-- None before the last ends in `[`. -/
  sealed_of_mem : ∀ n ∈ d.nodes.dropLast, n.Sealed

/-- In a node conditionals nest at most `depth` deep, and parentheses at most `limit` deep. -/
inductive Node.NestsWithin (limit : Nat) : Nat → Node → Prop where
  /-- Literal text. -/
  | literal {depth : Nat} {s : String} {span : Span} : NestsWithin limit depth (.literal s span)
  /-- The value of a parameter. -/
  | interpolation {depth : Nat} {name : String} {span : Span} :
      NestsWithin limit depth (.interpolation name span)
  /-- An include. -/
  | inclusion {depth : Nat} {path : String} {span : Span} :
      NestsWithin limit depth (.inclusion path span)
  /-- A conditional. -/
  | conditional {depth : Nat} {branches : List Branch}
      {otherwise : Option (List Node)} {span : Span}
      (hc : ∀ b ∈ branches, b.condition.parenDepth ≤ limit)
      (hn : ∀ b ∈ branches, ∀ n ∈ b.body, NestsWithin limit depth n)
      (hno : ∀ ns ∈ otherwise, ∀ n ∈ ns, NestsWithin limit depth n) :
      NestsWithin limit (depth + 1) (.conditional branches otherwise span)

/-- In a document conditionals and parentheses nest at most `limit` deep. -/
def Document.NestsWithin (limit : Nat) (d : Document) : Prop :=
  ∀ n ∈ d.nodes, n.NestsWithin limit limit

end Stencil
