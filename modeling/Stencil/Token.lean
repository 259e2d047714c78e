import Stencil.Span

/-!
# Tokens

A template is literal text with constructs set into it: directives between `[%`
and `%]` and interpolations between `[[` and `]]`. Its tokens are the stretches of
literal text, the markers, and what may stand between them. Each token has one
description, used in messages about it.
-/

namespace Stencil

/-- The two kinds of construct that markers set off from literal text. -/
inductive Construct where
  /-- `[% ... %]`. -/
  | directive
  /-- `[[ ... ]]`. -/
  | interpolation
  deriving DecidableEq, Repr

/-- The words that head a directive. -/
inductive Keyword where
  /-- `if`. -/
  | ifK
  /-- `elif`. -/
  | elifK
  /-- `else`. -/
  | elseK
  /-- `endif`. -/
  | endifK
  /-- `include`. -/
  | includeK
  deriving DecidableEq, Repr

/-- A token of a template. -/
inductive Token where
  /-- `[%`. -/
  | directiveOpen
  /-- `%]`. -/
  | directiveClose
  /-- `[[`. -/
  | interpolationOpen
  /-- `]]`. -/
  | interpolationClose
  /-- A word that heads a directive. -/
  | keyword (k : Keyword)
  /-- `not`. -/
  | notOp
  /-- `and`. -/
  | andOp
  /-- `or`. -/
  | orOp
  /-- `(`. -/
  | parenOpen
  /-- `)`. -/
  | parenClose
  /-- A name after a `$`, kept without it. -/
  | var (name : String)
  /-- A name of its own. -/
  | ident (name : String)
  /-- A quoted string, kept without its quotes and escapes. -/
  | string (value : String)
  /-- Literal text outside the markers. -/
  | text (value : String)
  deriving DecidableEq, Repr

namespace Construct

/-- The word for the construct in messages. -/
def name : Construct → String
  | directive => "directive"
  | interpolation => "interpolation"

/-- The token that opens the construct. -/
def openToken : Construct → Token
  | directive => .directiveOpen
  | interpolation => .interpolationOpen

/-- The token that closes the construct. -/
def closeToken : Construct → Token
  | directive => .directiveClose
  | interpolation => .interpolationClose

/-- The two characters that close the construct. -/
def closeMark : Construct → Char × Char
  | directive => ('%', ']')
  | interpolation => (']', ']')

/-- Either marker of a construct is two bytes wide. -/
def markSize : Nat := 2

end Construct

namespace Keyword

/-- The word as it is written. -/
def word : Keyword → String
  | ifK => "if"
  | elifK => "elif"
  | elseK => "else"
  | endifK => "endif"
  | includeK => "include"

/-- The words that may head a directive, in the order messages list them. -/
def all : List Keyword := [ifK, elifK, elseK, endifK, includeK]

end Keyword

namespace Token

/-- How messages name a token. -/
def describe : Token → String
  | directiveOpen => "'[%'"
  | directiveClose => "'%]'"
  | interpolationOpen => "'[['"
  | interpolationClose => "']]'"
  | keyword k => "keyword '" ++ k.word ++ "'"
  | notOp => "'not'"
  | andOp => "'and'"
  | orOp => "'or'"
  | parenOpen => "'('"
  | parenClose => "')'"
  | var s => "variable '$" ++ s ++ "'"
  | ident s => "identifier '" ++ s ++ "'"
  | string s => "string \"" ++ s ++ "\""
  | text _ => "literal text"

end Token

end Stencil
