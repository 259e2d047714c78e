import Stencil.Unicode.Blank
import Stencil.Unicode.Width

/-!
# Lines of a report

A report cuts a source into lines wherever a character ends one, and draws each line without
the blanks at its end. Every character takes up some columns on the terminal: a tab runs to
the next tab stop, a wide character takes two, a combining one none.
-/

namespace Stencil

/-- A line of a source. -/
structure SourceLine where
  /-- Its index, from zero. -/
  index : Nat
  /-- The number of characters before it. -/
  start : Nat
  /-- Its characters, the ones that end it included. -/
  chars : List Char
  deriving DecidableEq, Repr

namespace SourceLine

/-- The number of characters up to the end of the line. -/
def stop (l : SourceLine) : Nat := l.start + l.chars.length

/-- Whether a character ends a line. -/
def isBreak (c : Char) : Bool :=
  c == '\r' || c == '\n' || c.toNat == 11 || c.toNat == 12 || c.toNat == 0x85
    || c.toNat == 0x2028 || c.toNat == 0x2029

/-- The lines of a text, each with the characters that end it; a carriage return and the line
feed after it end one line together. -/
def split : List Char → List (List Char)
  | [] => []
  | '\r' :: '\n' :: cs => ['\r', '\n'] :: split cs
  | c :: cs =>
    if isBreak c then [c] :: split cs
    else
      match split cs with
      | [] => [[c]]
      | l :: ls => (c :: l) :: ls

/-- The lines with their numbers and starts, where `index` lines and `start` characters came
before. -/
def number (index start : Nat) : List (List Char) → List SourceLine
  | [] => []
  | l :: ls => ⟨index, start, l⟩ :: number (index + 1) (start + l.length) ls

/-- The lines of a source. -/
def ofSource (cs : List Char) : List SourceLine := number 0 0 (split cs)

/-- The last line that starts no later than a character offset. -/
def containing? (offset : Nat) (lines : List SourceLine) : Option SourceLine :=
  (lines.filter (·.start ≤ offset)).getLast?

/-- The characters that are drawn. -/
def drawn (l : SourceLine) : List Char :=
  (l.chars.reverse.dropWhile Unicode.isWhiteSpace).reverse

/-- The columns between tab stops. -/
def tabWidth : Nat := 4

/-- The columns that the character at an index takes up. -/
def widthAt (index : Nat) (c : Char) : Nat :=
  if c = '\t' then tabWidth - index % tabWidth
  else if Unicode.isWhiteSpace c then 1
  else Unicode.width c

/-- The columns of the first `n` characters that are drawn; beyond these a column each. -/
def widths (l : SourceLine) (n : Nat) : List Nat :=
  let drawn := l.drawn.mapIdx widthAt
  drawn.take n ++ List.replicate (n - drawn.length) 1

theorem split_flatten (cs : List Char) : (split cs).flatten = cs := by
  fun_induction split cs with
  | case1 => rfl
  | case2 cs ih => simp [ih]
  | case3 c cs _ _ ih => simp [ih]
  | case4 c cs _ _ h ih => simp [h] at ih; simp [← ih]
  | case5 c cs _ _ l ls h ih => rw [h] at ih; simp [← ih]

end SourceLine

end Stencil
