import Stencil.Token

/-!
# Parse errors

What can be wrong with the text of a template. An error is a cause and the span
it is blamed on; the wording of the message and the list of what would have been
accepted are functions of the cause.
-/

namespace Stencil

/-- Something that would have been accepted where an error stands. -/
inductive Expected where
  /-- This very token. -/
  | token (t : Token)
  /-- Any variable. -/
  | anyVariable
  /-- Any quoted string. -/
  | anyString
  deriving DecidableEq, Repr

/-- How messages name what was expected. -/
def Expected.describe : Expected → String
  | token t => t.describe
  | anyVariable => "variable"
  | anyString => "string literal"

namespace ParseError

/-- Why a template does not parse. -/
inductive Cause where
  /-- A construct has an opening marker and no closing one. -/
  | unterminated (construct : Construct)
  /-- No token begins with these characters. -/
  | unexpectedCharacter (found : String) (construct : Construct)
  /-- A token stands outside every construct. -/
  | strayToken (token : Token)
  /-- A directive has nothing between its markers. -/
  | emptyDirective
  /-- A directive begins with a token that heads none. -/
  | unknownDirective (head : Token)
  /-- `else` or `endif` has arguments. -/
  | takesNoArguments (keyword : Keyword)
  /-- `include` has anything but one quoted path. -/
  | pathExpected
  /-- `if` or `elif` has no condition. -/
  | conditionExpected (keyword : Keyword)
  /-- A condition cannot go on with this token. -/
  | unexpectedToken (token : Token) (expected : List Expected)
  /-- A condition cannot stop here. -/
  | unexpectedEnd (expected : List Expected)
  /-- An interpolation holds anything but one variable. -/
  | invalidInterpolation
  /-- An `if` block is never closed. -/
  | missingEndif
  /-- `elif`, `else` or `endif` stands in no `if` block. -/
  | unopened (keyword : Keyword)
  /-- `elif` or `else` comes after the `else` of its block. -/
  | afterElse (keyword : Keyword)
  /-- Blocks or parentheses nest deeper than the limit. -/
  | tooDeep (limit : Nat)
  deriving DecidableEq, Repr

/-- The message for a cause. -/
def Cause.message : Cause → String
  | unterminated c => "Unterminated " ++ c.name ++ ": missing closing marker"
  | unexpectedCharacter found c => "Unexpected character '" ++ found ++ "' in " ++ c.name
  | strayToken t => "Unexpected " ++ t.describe
  | emptyDirective => "Empty directive"
  | unknownDirective t => "Unknown directive " ++ t.describe
  | takesNoArguments k => k.word ++ " takes no arguments"
  | pathExpected => "include expects a single quoted relative path"
  | conditionExpected k => k.word ++ " expects a condition"
  | unexpectedToken t _ => "Unexpected " ++ t.describe
  | unexpectedEnd _ => "Unexpected end of directive"
  | invalidInterpolation => "Invalid interpolation: expected a single $-prefixed variable"
  | missingEndif => "Missing endif for if block"
  | unopened k => "Unexpected " ++ k.word ++ " without an open if block"
  | afterElse k => "Unexpected " ++ k.word ++ " after else in the same if block"
  | tooDeep limit => "Nesting exceeds the limit of " ++ toString limit ++ " levels"

/-- What would have been accepted instead. -/
def Cause.expected : Cause → List Expected
  | emptyDirective | unknownDirective _ => Keyword.all.map (.token <| .keyword ·)
  | takesNoArguments _ => [.token .directiveClose]
  | pathExpected => [.anyString]
  | conditionExpected _ => [.anyVariable]
  | unexpectedToken _ expected | unexpectedEnd expected => expected
  | _ => []

end ParseError

/-- A defect of a template and the place it is blamed on. -/
structure ParseError where
  /-- What is wrong. -/
  cause : ParseError.Cause
  /-- Where. -/
  span : Span
  deriving DecidableEq, Repr

/-- The message of a parse error. -/
def ParseError.message (e : ParseError) : String := e.cause.message

/-- The descriptions of what would have been accepted. -/
def ParseError.expected (e : ParseError) : List String := e.cause.expected.map Expected.describe

/-- The same error `n` bytes further on. -/
def ParseError.shift (e : ParseError) (n : Nat) : ParseError := ⟨e.cause, e.span.shift n⟩

end Stencil
