import Stencil.Include
import Stencil.Path
import Stencil.Unicode.Blank

/-!
# Include paths

An include path is relative: its components stand between slashes, `.` stands for nothing
and `..` takes back the component before it. The normal form has neither. A path that takes
back more than there is would leave the place it starts from, and is refused.
-/

namespace Stencil

namespace IncludePath

/-- A component of a path. -/
abbrev Component := List Char

/-- The components of a path: the pieces that are neither empty nor `.`. -/
def components (cs : List Char) : List Component :=
  (Path.pieces cs).filter (!Path.isIdle ·)

/-- The components that are left when each `..` takes back the last one, which comes first in
`kept`; nothing if there is none to take back. -/
def climb : (kept : List Component) → List Component → Option (List Component)
  | kept, [] => some kept.reverse
  | kept, p :: ps =>
    if p = Path.up then
      match kept with
      | [] => none
      | _ :: kept => climb kept ps
    else climb (p :: kept) ps

/-- Whether a text has nothing but white space. -/
def isBlank (cs : List Char) : Bool := cs.all Unicode.isWhiteSpace

/-- The components of the normal form of a path. -/
def resolve (path : String) : Except IncludeError (List Component) :=
  let cs := path.toList
  if isBlank cs || cs.contains '\x00' || Path.isAbsolute cs then .error ⟨.invalidPath, path⟩
  else
    match climb [] (components cs) with
    | none => .error ⟨.escape, path⟩
    | some [] => .error ⟨.invalidPath, path⟩
    | some parts => .ok parts

/-- The normal form of a path. -/
def normalize (path : String) : Except IncludeError String :=
  (resolve path).map (String.ofList <| Path.join ·)

end IncludePath

end Stencil
