/-!
# Spans of a source text

A source text is a list of characters, and every place in it is named by its
offset in bytes of UTF-8. `Text.size` is the length of a stretch of text in
bytes; a `Span` is a half-open range of offsets, and `Spanned` puts one beside
the thing that was read there.
-/

namespace Stencil

/-! ### Sizes -/

/-- The number of bytes of a stretch of text in UTF-8. -/
def Text.size : List Char → Nat
  | [] => 0
  | c :: cs => c.utf8Size + Text.size cs

@[simp] theorem Text.size_nil : Text.size [] = 0 := rfl

@[simp] theorem Text.size_cons (c : Char) (cs : List Char) :
    Text.size (c :: cs) = c.utf8Size + Text.size cs := rfl

@[simp] theorem Text.size_append (a b : List Char) :
    Text.size (a ++ b) = Text.size a + Text.size b := by
  induction a with
  | nil => simp
  | cons c a ih => simp [ih, Nat.add_assoc]

/-- Only the empty stretch of text has no bytes. -/
theorem Text.size_pos {cs : List Char} (h : cs ≠ []) : 0 < Text.size cs := by
  cases cs with
  | nil => exact absurd rfl h
  | cons c cs =>
    have := c.utf8Size_pos
    simp only [Text.size_cons]
    omega

/-! ### Spans -/

/-- A half-open range of byte offsets. The end may come before the start: a
condition that stops too early is reported from the close marker back to the last
token that was read. -/
structure Span where
  /-- The first offset of the range. -/
  start : Nat
  /-- The first offset after the range. -/
  stop : Nat
  deriving DecidableEq, Repr

/-- The span as it reads `n` bytes further on. -/
def Span.shift (s : Span) (n : Nat) : Span := ⟨s.start + n, s.stop + n⟩

/-- Something that was read from a source, with the place it was read from. -/
structure Spanned (α : Type) where
  /-- What was read. -/
  node : α
  /-- Where it was read. -/
  span : Span
  deriving DecidableEq, Repr

/-- The same thing `n` bytes further on. -/
def Spanned.shift {α : Type} (x : Spanned α) (n : Nat) : Spanned α := ⟨x.node, x.span.shift n⟩

end Stencil
