import Stencil.Toml

/-!
# Building TOML tables

The tables of a document are built entry by entry. A table comes from its own header, from the
header of a table inside it, or from a dotted key, and that decides how it may grow: a header
may still be given to a table that only headers inside it have named, a dotted key may only
extend tables that dotted keys have made, and nothing is defined twice.
-/

namespace Stencil

namespace Toml

/-- How a table came to be. -/
inductive TableOrigin where
  /-- By its own header, or as the root. -/
  | header
  /-- By the header of a table inside it. -/
  | inner
  /-- By a dotted key. -/
  | dotted
  deriving DecidableEq, Repr

/-- What a name stands for while the document is read. -/
inductive Entry where
  /-- A finished value. -/
  | value (v : Toml)
  /-- A table that may still grow. -/
  | table (origin : TableOrigin) (entries : List (String × Entry))
  /-- An array of tables, of which only the last may still grow. -/
  | tables (done : List (List (String × Entry))) (last : Option (List (String × Entry)))

/-- The entries of a table that may still grow. -/
abbrev Entries := List (String × Entry)

namespace Entries

/-- The entry of a name. -/
def find? (name : String) (es : Entries) : Option Entry := es.lookup name

/-- Replaces the entry of a name, or adds it at the end. -/
def set (name : String) (e : Entry) : Entries → Entries
  | [] => [(name, e)]
  | (k, v) :: rest => if k = name then (name, e) :: rest else (k, v) :: set name e rest

/-- The entries without those of a name. -/
def erase (name : String) (es : Entries) : Entries := es.filter (·.1 ≠ name)

/-- Changes the table at the end of a path of names, making the tables on the way that do not
exist yet. `byKey` says that the path is that of a dotted key and not of a header. -/
def update (byKey : Bool) (change : TableOrigin → Entries → Option Entries) :
    List String → TableOrigin → Entries → Option Entries
  | [], origin, es => change origin es
  | name :: path, _, es =>
    match find? name es with
    | none => do
      let origin := if byKey then TableOrigin.dotted else .inner
      let inside ← update byKey change path origin []
      return set name (.table origin inside) es
    | some (.value _) => none
    | some (.tables done last) => do
      let inside ← update byKey change path .header (last.getD [])
      return set name (.tables done (some inside)) es
    | some (.table origin inside) => do
      if byKey ∧ origin = .header then none
      let inside ← update byKey change path origin inside
      return set name (.table origin inside) es

/-- Adds a value under a dotted key. -/
def define (path : List String) (name : String) (v : Toml) (es : Entries) : Option Entries :=
  update true
    (fun origin es =>
      if !path.isEmpty ∧ origin ≠ .dotted then none
      else if (find? name es).isSome then none
      else some (es ++ [(name, .value v)]))
    path .header es

end Entries

/-- A document that is being read: the tables whose header or end has been seen, and the one
that entries go to. -/
structure Draft where
  /-- The root. -/
  root : Entries
  /-- Where the current table belongs: the tables on the way, its name, and whether it is one of
  an array. Nothing for the root. -/
  place : Option (List String × String × Bool)
  /-- The entries of the current table. -/
  current : Entries

namespace Draft

/-- A document with nothing in it. -/
def empty : Draft := ⟨[], none, []⟩

/-- The root with the current table in its place. -/
def finish? (d : Draft) : Option Entries :=
  match d.place with
  | none => some d.current
  | some (path, name, false) =>
    Entries.update false
      (fun _ es =>
        if (Entries.find? name es).isSome then none
        else some (es ++ [(name, .table .header d.current)]))
      path .header d.root
  | some (path, name, true) =>
    Entries.update false
      (fun _ es =>
        match Entries.find? name es with
        | some (.tables done last) =>
          some (Entries.set name (.tables (done ++ last.toList) (some d.current)) es)
        | _ => none)
      path .header d.root

/-- The entries of the table at the end of a header's path. -/
def inside? : List String → Entries → Option Entries
  | [], es => some es
  | name :: path, es =>
    match Entries.find? name es with
    | none => inside? path []
    | some (.value _) => none
    | some (.tables _ last) => inside? path (last.getD [])
    | some (.table _ inside) => inside? path inside

/-- Starts the table of a header. -/
def startTable (d : Draft) (path : List String) (name : String) : Option Draft := do
  let root ← d.finish?
  let parent ← inside? path root
  match Entries.find? name parent with
  | none =>
    let root ← Entries.update false (fun _ es => some es) path .header root
    return ⟨root, some (path, name, false), []⟩
  | some (.table .inner entries) =>
    let root ← Entries.update false (fun _ es => some (Entries.erase name es)) path .header root
    return ⟨root, some (path, name, false), entries⟩
  | some _ => none

/-- Starts one more table of an array of tables. -/
def startElement (d : Draft) (path : List String) (name : String) : Option Draft := do
  let root ← d.finish?
  let root ← Entries.update false
    (fun _ es =>
      match Entries.find? name es with
      | none => some (es ++ [(name, .tables [] none)])
      | some (.tables done last) => some (Entries.set name (.tables done last) es)
      | some _ => none)
    path .header root
  return ⟨root, some (path, name, true), []⟩

/-- Adds a value to the current table. -/
def define (d : Draft) (path : List String) (name : String) (v : Toml) : Option Draft :=
  (d.current.define path name v).map fun es => { d with current := es }

end Draft

mutual

/-- The value that an entry stands for in the end. -/
def Entry.finished : Entry → Toml
  | .value v => v
  | .table _ entries => .table (finishedEntries entries)
  | .tables done none => .array (finishedTables done)
  | .tables done (some last) => .array (finishedTables done ++ [.table (finishedEntries last)])

/-- The values that the entries of a table stand for. -/
def finishedEntries : List (String × Entry) → List (String × Toml)
  | [] => []
  | (k, e) :: rest => (k, e.finished) :: finishedEntries rest

/-- The tables of an array. -/
def finishedTables : List (List (String × Entry)) → List Toml
  | [] => []
  | es :: rest => .table (finishedEntries es) :: finishedTables rest

end

end Toml

end Stencil
