import Stencil.Unicode.Printable

/-!
# Quoting in messages

A text in a message stands between double quotes, with everything that would not show
written as an escape: line feeds and the like by a letter, other characters by their code
point in hexadecimal.
-/

namespace Stencil

namespace Visible

/-- A code point in hexadecimal between braces. -/
def codePoint (c : Char) : List Char :=
  ['\\', 'u', '\x7b'] ++ Nat.toDigits 16 c.toNat ++ ['\x7d']

/-- A character between quotes. -/
def char (c : Char) : List Char :=
  if c = '\x00' then ['\\', '0']
  else if c = '\t' then ['\\', 't']
  else if c = '\r' then ['\\', 'r']
  else if c = '\n' then ['\\', 'n']
  else if c = '\x22' then ['\\', '\x22']
  else if c = '\\' then ['\\', '\\']
  else if Unicode.isPrintable c then [c]
  else codePoint c

end Visible

/-- A text between quotes, as messages show it. -/
def Visible.quote (s : String) : String :=
  String.ofList ('\x22' :: s.toList.flatMap Visible.char ++ ['\x22'])

end Stencil
