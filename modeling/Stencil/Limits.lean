import Stencil.Document.Parse

/-!
# Limits of a render

What a single render may do: how deep includes may nest, how many of them there may be, how
many bytes it may write, and how deep blocks and parentheses may nest in any template.
-/

namespace Stencil

/-- The limits of a render. -/
structure Limits where
  /-- How deep includes may nest. -/
  depth : Nat
  /-- How many includes a render may read. -/
  includes : Nat
  /-- How many bytes a render may write. -/
  bytes : Nat
  /-- How deep blocks and parentheses may nest. -/
  nesting : Nat
  deriving DecidableEq, Repr

/-- The limits of a render that sets none. -/
def Limits.standard : Limits := ⟨16, 256, 8388608, Document.defaultNesting⟩

/-- How a render can go beyond what it may do. -/
inductive LimitError where
  /-- Includes nest too deep. -/
  | tooDeep (limit : Nat)
  /-- There are too many includes. -/
  | tooMany (limit : Nat)
  /-- The output is too large. -/
  | tooLarge (limit : Nat)
  /-- A template includes itself, through the includes of these keys. -/
  | cycle (chain : List String)
  deriving DecidableEq, Repr

/-- The message for a limit error. -/
def LimitError.message : LimitError → String
  | tooDeep limit => "include depth exceeds the limit of " ++ toString limit
  | tooMany limit => "render exceeds the limit of " ++ toString limit ++ " includes"
  | tooLarge limit => "output exceeds the limit of " ++ toString limit ++ " bytes"
  | cycle chain => "include cycle detected: " ++ " -> ".intercalate chain

end Stencil
