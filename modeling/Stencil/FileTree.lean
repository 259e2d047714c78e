import Stencil.Path
import Stencil.Unicode.Utf8

/-!
# File trees

A tree of directories, regular files and symbolic links, as far as names and contents go.
Names and what links point to are bytes, which need not be UTF-8; a text stands for its bytes.
Every place has an absolute path of names with no link, no `.` and no `..` in it.

`FileTree.walk` follows a path name by name, goes where links point, and gives the place it
comes to. Only a directory can be walked through, and a walk follows no more than
`maxLinks` links, which is why it ends.
-/

namespace Stencil

/-- A name in a file tree. -/
abbrev Path.Name := List UInt8

instance : Coe (List Char) Path.Name := ⟨Utf8.encode⟩

instance : Coe String Path.Name := ⟨fun s => Utf8.encode s.toList⟩

/-- The absolute path of a place, from the root on. -/
abbrev Place := List Path.Name

instance : Coe (List (List Char)) Place := ⟨List.map Utf8.encode⟩

/-- What stands at a place. -/
inductive FileNode where
  /-- A regular file. -/
  | file (bytes : ByteArray)
  /-- A directory. -/
  | directory
  /-- A symbolic link. -/
  | link (target : List UInt8)
  /-- Anything else: a device, a socket and the like. Reading it gives nothing. -/
  | other

/-- A tree of files. -/
structure FileTree where
  /-- What stands where; the root itself needs no entry. -/
  nodes : List (Place × FileNode)

/-- Why a file could not be reached or read. -/
inductive FileError where
  /-- There is nothing of that name. -/
  | notFound
  /-- Something other than a directory was walked through. -/
  | notADirectory
  /-- A directory was read. -/
  | isADirectory
  /-- A name or a path is too long. -/
  | nameTooLong
  /-- There were too many links on the way. -/
  | tooManyLinks
  /-- A path has a character that no path can have. -/
  | nulInPath
  /-- The content is not UTF-8. -/
  | notUtf8
  deriving DecidableEq, Repr

/-- The message for a file error. -/
def FileError.message : FileError → String
  | notFound => "No such file or directory (os error 2)"
  | notADirectory => "Not a directory (os error 20)"
  | isADirectory => "Is a directory (os error 21)"
  | nameTooLong => "File name too long (os error 36)"
  | tooManyLinks => "Too many levels of symbolic links (os error 40)"
  | nulInPath => "file name contained an unexpected NUL byte"
  | notUtf8 => "stream did not contain valid UTF-8"

namespace FileTree

/-- What stands at a place; the root is a directory. -/
def node? (t : FileTree) (place : Place) : Option FileNode :=
  if place = [] then some .directory else t.nodes.lookup place

/-- Puts something at a place, instead of what was there. -/
def put (t : FileTree) (place : Place) (node : FileNode) : FileTree :=
  ⟨(place, node) :: t.nodes.filter (·.1 ≠ place)⟩

/-- Takes away what stands at a place and everything below it. -/
def remove (t : FileTree) (place : Place) : FileTree :=
  ⟨t.nodes.filter fun (p, _) => !place.isPrefixOf p⟩

/-- Makes directories below a place where there is nothing yet, one name after the other. -/
def makeDirectories (t : FileTree) (above : Place) : List Path.Name → FileTree
  | [] => t
  | p :: ps =>
    let here := above ++ [p]
    makeDirectories (if (t.node? here).isSome then t else t.put here .directory) here ps

/-- How many links a walk follows. -/
def maxLinks : Nat := 40

/-- How many bytes a name may have. -/
def maxName : Nat := 255

/-- How many bytes a path may have. -/
def maxPath : Nat := 4095

/-- Walks the pieces of a path from a place, following up to `links` links. A name that is
too long is refused; that a path can be too long as a whole is left out. -/
def walkFrom (t : FileTree) (links : Nat) (here : Place) (pieces : List Path.Name) :
    Except FileError (Place × FileNode) :=
  match pieces with
  | [] =>
    match t.node? here with
    | some node => .ok (here, node)
    | none => .error .notFound
  | p :: ps =>
    match t.node? here with
    | none => .error .notFound
    | some .directory =>
      if Path.isIdle p then walkFrom t links here ps
      else if p = Path.up then walkFrom t links here.dropLast ps
      else if maxName < p.length then .error .nameTooLong
      else
        match t.node? (here ++ [p]) with
        | some (.link target) =>
          match links with
          | 0 => .error .tooManyLinks
          | links + 1 =>
            walkFrom t links (if Path.isAbsolute target then [] else here)
              (Path.pieces target ++ ps)
        | _ => walkFrom t links (here ++ [p]) ps
    | some _ => .error .notADirectory
termination_by (links, pieces.length)

/-- Walks a path from the directory `home`, or from the root if it is absolute. -/
def walk (t : FileTree) (home : Place) (path : List UInt8) : Except FileError (Place × FileNode) :=
  if path.contains 0 then .error .nulInPath
  else if path = [] then .error .notFound
  else t.walkFrom maxLinks (if Path.isAbsolute path then [] else home) (Path.pieces path)

/-- The text of a place, as far as its names are text. -/
def placeText (place : Place) : String := String.ofList ('/' :: Utf8.read (Path.join place))

/-- The content of a node as text. -/
def contentOf : FileNode → Except FileError String
  | .file bytes =>
    match String.fromUTF8? bytes with
    | some s => .ok s
    | none => .error .notUtf8
  | .other => .ok ""
  | .directory | .link _ => .error .isADirectory

/-- Reads the file at a path as text. -/
def readText (t : FileTree) (home : Place) (path : String) : Except FileError String :=
  if !path.toList.contains '\x00' && maxPath < path.utf8ByteSize then .error .nameTooLong
  else do
    let (_, node) ← t.walk home path.toList
    contentOf node

end FileTree

end Stencil
