/-!
# Includes

A template names another by a path. A resolver turns the path into content and a key, which
is the same for two paths that lead to the same content; it may refuse. Messages repeat the
path as it was written and nothing else.
-/

namespace Stencil

/-- Why an include was refused. A file that cannot be read, or not in time, would be refused too,
but what is in a file tree can be read at once, so these two causes are left out. -/
inductive IncludeError.Cause where
  /-- The path is blank, absolute, or leads nowhere. -/
  | invalidPath
  /-- The path leads out of the place includes come from. -/
  | escape
  /-- There is nothing at the path. -/
  | notFound
  /-- What is at the path is no regular file. -/
  | notAFile
  /-- The file has more bytes than `limit`. -/
  | tooLarge (limit : Nat)
  /-- The file is not UTF-8. -/
  | notUtf8
  /-- There are no includes at all. -/
  | disabled
  deriving DecidableEq, Repr

/-- A refused include. -/
structure IncludeError where
  /-- Why it was refused. -/
  cause : IncludeError.Cause
  /-- The path as it was written. -/
  path : String
  deriving DecidableEq, Repr

/-- What messages say before the path. -/
def IncludeError.Cause.message : IncludeError.Cause → String
  | invalidPath => "include path must be a non-empty relative path"
  | escape => "include path escapes the sandbox"
  | notFound => "include not found"
  | notAFile => "include is not a regular file"
  | tooLarge limit => "include exceeds the " ++ toString limit ++ " byte limit"
  | notUtf8 => "include is not valid UTF-8"
  | disabled => "includes are disabled"

/-- The message for a refused include. -/
def IncludeError.message (e : IncludeError) : String := e.cause.message ++ ": " ++ e.path

/-- What a path leads to. -/
structure Resolved where
  /-- What tells one include from another. -/
  key : String
  /-- The template. -/
  content : String
  deriving DecidableEq, Repr

/-- Where includes come from. -/
def Resolver : Type := String → Except IncludeError Resolved

/-- A resolver that refuses every include. -/
def Resolver.none : Resolver := fun path => .error ⟨.disabled, path⟩

end Stencil
