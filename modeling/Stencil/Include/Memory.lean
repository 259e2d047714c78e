import Stencil.Include.Path

/-!
# Includes kept in memory

Contents by path. A content is kept under the normal form of its path, and a request is
looked up under its own; a content whose path has no normal form is kept under the path as
it is.
-/

namespace Stencil

/-- Contents by path. -/
structure MemoryIncludes where
  /-- The contents, each under its own key. -/
  files : List (String × String)
  deriving DecidableEq, Repr

namespace MemoryIncludes

/-- No contents. -/
def empty : MemoryIncludes := ⟨[]⟩

/-- Puts a content under a key, in place of what was there. -/
def put (key content : String) : List (String × String) → List (String × String)
  | [] => [(key, content)]
  | (k, c) :: rest => if k = key then (key, content) :: rest else (k, c) :: put key content rest

/-- The key under which a path is kept. -/
def keyOf (path : String) : String := ((IncludePath.normalize path).toOption).getD path

/-- One more content. -/
def insert (m : MemoryIncludes) (path content : String) : MemoryIncludes :=
  ⟨put (keyOf path) content m.files⟩

/-- The contents of a list, put in one after the other. -/
def ofList (files : List (String × String)) : MemoryIncludes :=
  files.foldl (fun m (path, content) => m.insert path content) empty

/-- The content under a key. -/
def get? (m : MemoryIncludes) (key : String) : Option String := m.files.lookup key

/-- The number of contents. -/
def size (m : MemoryIncludes) : Nat := m.files.length

/-- The resolver that looks paths up. -/
def resolver (m : MemoryIncludes) : Resolver := fun path => do
  let key ← IncludePath.normalize path
  match m.get? key with
  | some content => return ⟨key, content⟩
  | none => .error ⟨.notFound, path⟩

end MemoryIncludes

end Stencil
