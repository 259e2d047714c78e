import Stencil.Document.Blocks
import Stencil.Token.Scan

/-!
# Parsing a template

A template is scanned into tokens, the tokens collapse into items, and the items are put
together into a document. The first defect of the earliest of these steps is the one that
is reported.
-/

namespace Stencil

namespace Document

/-- How deep blocks and parentheses may nest unless something else is asked for. -/
def defaultNesting : Nat := 64

/-- The document that a list of items makes. -/
def ofItems (limit : Nat) (items : List (Spanned Item)) : Except ParseError Document := do
  let body ← block limit 0 items
  match body.terminator with
  | none => return ⟨body.nodes⟩
  | some t => .error ⟨.unopened t.node.keyword, t.span⟩

/-- The document that a template makes when blocks and parentheses may nest `limit` deep. -/
def parse (limit : Nat) (source : String) : Except ParseError Document := do
  let tokens ← Token.scan source
  let items ← Item.ofTokens limit tokens
  ofItems limit items

end Document

end Stencil
