import Stencil.FileTree
import Stencil.Include.Path

/-!
# Includes from a sandbox

A sandbox is a directory of a file tree. An include path is followed from there through all
links, and what it leads to is served only if it is a regular file below that directory, not
too large and UTF-8. The key of an include is its place below the directory, as text, so two
paths that lead to the same file have the same key.
-/

namespace Stencil

/-- A directory that includes come from. -/
structure Sandbox where
  /-- The place of the directory. -/
  root : Place
  /-- How many bytes an include may have. -/
  maxBytes : Nat
  deriving DecidableEq, Repr

/-- Why a directory cannot be a sandbox. -/
inductive SandboxError where
  /-- It cannot be reached. -/
  | unreachable (e : FileError)
  /-- It is no directory. -/
  | notADirectory
  deriving DecidableEq, Repr

/-- The message for a sandbox error. -/
def SandboxError.message : SandboxError → String
  | unreachable e => e.message
  | notADirectory => "sandbox root is not a directory"

namespace Sandbox

/-- The sandbox of the directory that a path leads to. -/
def ofPath (files : FileTree) (home : Place) (path : String) (maxBytes : Nat) :
    Except SandboxError Sandbox :=
  match files.walk home path.toList with
  | .ok (place, .directory) => .ok ⟨place, maxBytes⟩
  | .ok _ => .error .notADirectory
  | .error e => .error (.unreachable e)

/-- The place below the root that a place is; nothing if it is not below. -/
def below? (root : Place) (place : Place) : Option Place :=
  if root.isPrefixOf place then some (place.drop root.length) else none

/-- A character of a key: a backslash becomes a slash. -/
def keyChar (c : Char) : Char := if c = '\\' then '/' else c

/-- The key of the file at a place below the root: the path from there is read as text, and what is
no UTF-8 is replaced. -/
def keyOf (inside : Place) : String :=
  String.ofList ((Utf8.read (Path.join inside)).map keyChar)

/-- How many bytes of a file are read at most: one more than an include may have, so that a
longer file shows, as far as 64 bits go. -/
def readLimit (s : Sandbox) : Nat := min (s.maxBytes + 1) (UInt64.size - 1)

/-- What is read of a file, unless it is too long for an include. -/
def read (s : Sandbox) (bytes : ByteArray) : Except IncludeError.Cause ByteArray :=
  let found := bytes.extract 0 s.readLimit
  if s.maxBytes < found.size then .error (.tooLarge s.maxBytes) else .ok found

/-- What the resolver serves for the node that a path leads to. The size of a file is looked at
before any of it is read, and again after that. -/
def serve (s : Sandbox) (inside : Place) : FileNode → Except IncludeError.Cause Resolved
  | .file bytes =>
    if s.maxBytes < bytes.size then .error (.tooLarge s.maxBytes)
    else do
      let found ← s.read bytes
      match String.fromUTF8? found with
      | some content => return ⟨keyOf inside, content⟩
      | none => .error .notUtf8
  | _ => .error .notAFile

/-- What an include path leads to. That a path can be too long as a whole is left out, as in
`FileTree.walkFrom`. -/
def resolve (s : Sandbox) (files : FileTree) (path : String) : Except IncludeError Resolved := do
  let parts ← IncludePath.resolve path
  match files.walkFrom FileTree.maxLinks [] (s.root ++ parts.map Utf8.encode) with
  | .error _ => .error ⟨.notFound, path⟩
  | .ok (place, node) =>
    match below? s.root place with
    | none => .error ⟨.escape, path⟩
    | some inside => (s.serve inside node).mapError (⟨·, path⟩)

/-- The resolver of a sandbox, for the files as they are. -/
def resolver (s : Sandbox) (files : FileTree) : Resolver := s.resolve files

end Sandbox

end Stencil
