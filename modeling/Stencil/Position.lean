import Stencil.Span

/-!
# Lines and columns

A byte offset of a source text as people read it: a line and a column, both
counted from one, columns in characters. An offset that is no boundary between
two characters, or lies beyond the text, is placed at the end of the text but
keeps its number.
-/

namespace Stencil

/-- A place in a source text. -/
structure Position where
  /-- The byte offset, as it was asked for. -/
  offset : Nat
  /-- The line, counted from one. -/
  line : Nat
  /-- The column in characters, counted from one. -/
  column : Nat
  deriving DecidableEq, Repr

/-- The characters before byte offset `n`, where `n` is a character boundary of the text. -/
def Text.before? : List Char → Nat → Option (List Char)
  | _, 0 => some []
  | [], _ + 1 => none
  | c :: cs, n + 1 =>
    if c.utf8Size ≤ n + 1 then (Text.before? cs (n + 1 - c.utf8Size)).map (c :: ·) else none

/-- The characters after the last line feed. -/
def Text.lastLine (cs : List Char) : List Char :=
  (cs.reverse.takeWhile (· != '\n')).reverse

/-- The line and column that follow the text `cs`. -/
def Position.after (cs : List Char) (offset : Nat) : Position :=
  ⟨offset, cs.count '\n' + 1, (Text.lastLine cs).length + 1⟩

/-- Where byte offset `offset` lies in `source`. -/
def Position.locate (source : String) (offset : Nat) : Position :=
  Position.after ((Text.before? source.toList offset).getD source.toList) offset

end Stencil
