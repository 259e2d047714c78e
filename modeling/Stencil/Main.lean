import Stencil.CommandLine

/-!
# The program

Everything that touches the outside is here: the files that a run may look at are read first,
as a file tree, and then the run is one function of them. The sandbox is read with all that is
below it, and so is every place that a link in it leads to, but what lies outside is only
looked at and not read. The system's own names come as text here, so a file whose name is no
UTF-8 is not found.
-/

namespace Stencil

namespace Host

/-- The place that an absolute path with no link in it names. -/
def placeOf (path : String) : Place :=
  (Path.pieces (Utf8.encode path.toList)).filter (!Path.isIdle ·)

/-- The bytes of a file; if there is a limit, no more than it takes to see that they exceed it. -/
def bytesOf (path : String) (limit : Option Nat) : IO ByteArray := do
  let handle ← IO.FS.Handle.mk path .read
  let mut bytes := ByteArray.empty
  let mut more := true
  while more do
    let chunk ← handle.read 65536
    bytes := bytes ++ chunk
    more := !chunk.isEmpty && limit.all (bytes.size ≤ ·)
  return bytes

/-- The file tree with what stands at a place, and, for a link, at the place it leads to. Files
are read if `wanted` says so. -/
partial def see (limit : Option Nat) (wanted : Place → Bool) (t : FileTree) (place : Place) :
    IO FileTree := do
  let path := FileTree.placeText place
  let real ← (IO.FS.realPath path).toBaseIO
  match real with
  | .error _ => return t.put place (.link path.toList)
  | .ok real =>
    let target := placeOf real.toString
    if target ≠ place then see limit wanted (t.put place (.link real.toString.toList)) target
    else
      let t := t.makeDirectories [] place.dropLast
      match (← real.metadata).type with
      | .dir => return t.makeDirectories [] place
      | .file =>
        let bytes ← if wanted place then bytesOf path limit else pure .empty
        return t.put place (.file bytes)
      | _ => return t.put place .other

/-- The file tree with what stands at each place on a path from `here`. -/
partial def seePath (limit : Option Nat) (t : FileTree) (here : Place) (pieces : List Path.Name) :
    IO FileTree := do
  match pieces with
  | [] => return t
  | p :: ps =>
    if Path.isIdle p then seePath limit t here ps
    else if p = Path.up then seePath limit t here.dropLast ps
    else
      let path := FileTree.placeText (here ++ [p])
      let exists? ← (IO.FS.realPath path).toBaseIO
      match exists? with
      | .error _ => return t
      | .ok _ =>
        let t ← see limit (fun _ => true) t (here ++ [p])
        match t.walkFrom FileTree.maxLinks here [p] with
        | .ok (place, _) => seePath limit t place ps
        | .error _ => return t

/-- The file tree with everything below a place, and below every directory that a link there
leads to; `done` are the directories that have been looked at already. -/
partial def seeBelow (limit : Option Nat) (wanted : Place → Bool) (t : FileTree) (done : List Place)
    (place : Place) : IO (FileTree × List Place) := do
  if done.contains place then return (t, done)
  let directory ← IO.FS.realPath (FileTree.placeText place)
  let mut t := t
  let mut done := place :: done
  for entry in ← directory.readDir do
    let below := place ++ [entry.fileName.toList]
    t ← see limit wanted t below
    match t.walkFrom FileTree.maxLinks below.dropLast [entry.fileName.toList] with
    | .ok (place, .directory) => (t, done) ← seeBelow limit wanted t done place
    | _ => pure ()
  return (t, done)

/-- The file tree with what a path given to the program leads to. -/
def seeArgument (limit : Option Nat) (t : FileTree) (home : Place) (path : String) : IO FileTree :=
  let names := Path.pieces (Utf8.encode path.toList)
  seePath limit t (if Path.isAbsolute path.toList then [] else home) names

/-- The files that a run with these options may look at. -/
def filesFor (home : Place) (o : Options) : IO FileTree := do
  let mut t : FileTree := FileTree.makeDirectories ⟨[]⟩ [] home
  for path in o.config.toList ++ o.input.toList do
    t ← seeArgument none t home path
  match CommandLine.configOf t home o with
  | .error _ => return t
  | .ok config =>
    match config.sandboxRoot with
    | none => return t
    | some root =>
      t ← seeArgument (some 0) t home root
      match t.walk home root.toList with
      | .ok (place, .directory) =>
        return (← seeBelow (some config.includeBytes) place.isPrefixOf t [] place).1
      | _ => return t

/-- All of the input. -/
partial def readAll (input : IO.FS.Stream) (bytes : ByteArray) : IO ByteArray := do
  let chunk ← input.read 65536
  if chunk.isEmpty then return bytes else readAll input (bytes ++ chunk)

/-- Runs the program: a question how it is used, or no request at a terminal, is answered with
its usage. -/
def run (arguments : List String) : IO Exit := do
  let home := placeOf (← IO.FS.realPath ".").toString
  let input ← IO.getStdin
  match Options.read arguments with
  | .answer o =>
    if o.input.isNone && (← input.isTty) then return ⟨CommandLine.success, CommandLine.usage, ""⟩
    let files ← filesFor home o
    let bytes ← if o.input.isNone then readAll input .empty else pure .empty
    return CommandLine.run files home arguments bytes
  | _ => return CommandLine.run ⟨[]⟩ home arguments .empty

end Host

end Stencil

/-- Writes what a run leaves behind, and ends with its status. -/
def main (arguments : List String) : IO UInt32 := do
  let exit ← Stencil.Host.run arguments
  (← IO.getStdout).putStr exit.output
  (← IO.getStderr).putStr exit.complaints
  return exit.status.toUInt32
