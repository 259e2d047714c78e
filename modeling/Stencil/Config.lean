import Stencil.FileTree
import Stencil.Include.Sandbox
import Stencil.Limits
import Stencil.Visible
import Stencil.Toml.Reader

/-!
# Configuration

An engine is configured by where includes come from, what a render may do and how many parsed
templates are kept. A configuration is written in TOML, with one entry for each setting; a
setting that is left out keeps its default, and the first entry that is unknown or does not fit
is reported.
-/

namespace Stencil

/-- The configuration of an engine. -/
structure Config where
  /-- The path of the directory that includes come from. -/
  sandboxRoot : Option String
  /-- What a render may do. -/
  limits : Limits
  /-- How many bytes an include may have. -/
  includeBytes : Nat
  /-- How many milliseconds reading an include may take. -/
  includeTimeout : Nat
  /-- How many parsed templates are kept. -/
  cacheCapacity : Nat
  deriving DecidableEq, Repr

/-- The configuration that sets nothing. -/
def Config.standard : Config := ⟨none, .standard, 1048576, 2000, 256⟩

/-- A setting of a configuration. -/
inductive Setting where
  /-- Where includes come from. -/
  | sandboxRoot
  /-- How deep includes may nest. -/
  | maxIncludeDepth
  /-- How many includes a render may read. -/
  | maxIncludes
  /-- How many bytes an include may have. -/
  | maxIncludeBytes
  /-- How many milliseconds reading an include may take. -/
  | includeTimeout
  /-- How many bytes a render may write. -/
  | maxOutputBytes
  /-- How deep blocks and parentheses may nest. -/
  | maxNesting
  /-- How many parsed templates are kept. -/
  | cacheCapacity
  deriving DecidableEq, Repr

namespace Setting

/-- The name of a setting. -/
def name : Setting → String
  | sandboxRoot => "sandbox_root"
  | maxIncludeDepth => "max_include_depth"
  | maxIncludes => "max_includes"
  | maxIncludeBytes => "max_include_bytes"
  | includeTimeout => "include_timeout_ms"
  | maxOutputBytes => "max_output_bytes"
  | maxNesting => "max_nesting"
  | cacheCapacity => "cache_capacity"

/-- The settings, in the order in which messages list them. -/
def all : List Setting :=
  [sandboxRoot, maxIncludeDepth, maxIncludes, maxIncludeBytes, includeTimeout, maxOutputBytes,
    maxNesting, cacheCapacity]

/-- The setting of a name. -/
def ofName? (name : String) : Option Setting := all.find? (·.name == name)

/-- What messages say a setting takes. -/
def wanted : Setting → String
  | sandboxRoot => "path string"
  | maxIncludeBytes | includeTimeout => "u64"
  | _ => "usize"

end Setting

/-- Why a configuration cannot be used. -/
inductive ConfigError where
  /-- Its file cannot be read. -/
  | unreadable (e : FileError)
  /-- It is not TOML. -/
  | malformed
  /-- There is no setting of this name. -/
  | unknownSetting (name : String)
  /-- A setting has a value of the wrong type. -/
  | wrongType (setting : Setting) (found : Toml)
  /-- A setting that takes a number has a negative one. -/
  | negative (setting : Setting) (found : Int)
  /-- The directory for includes is no sandbox. -/
  | sandbox (e : SandboxError)
  deriving Repr

/-- How messages name a TOML value. -/
def Toml.describe : Toml → String
  | string s => "string " ++ Visible.quote s
  | integer n => "integer `" ++ toString n ++ "`"
  | float x => "floating point `" ++ x.text ++ "`"
  | boolean b => "boolean `" ++ (if b then "true" else "false") ++ "`"
  | array _ => "sequence"
  | dateTime | table _ => "map"

/-- Why an entry does not fit, for the errors that are about one. -/
def ConfigError.reason? : ConfigError → Option String
  | unknownSetting name =>
    some ("unknown field `" ++ name ++ "`, expected one of "
      ++ ", ".intercalate (Setting.all.map fun s => "`" ++ s.name ++ "`"))
  | wrongType setting found =>
    some ("invalid type: " ++ found.describe ++ ", expected " ++ setting.wanted)
  | negative setting found =>
    some ("invalid value: integer `" ++ toString found ++ "`, expected " ++ setting.wanted)
  | _ => none

/-- The message for a configuration error. -/
def ConfigError.message (e : ConfigError) : String :=
  match e with
  | unreadable e => "Failed to read config file: " ++ e.message
  | sandbox e => "Sandbox root is unusable: " ++ e.message
  | other => "Failed to parse config TOML: " ++ other.reason?.getD "not a TOML document"

namespace Config

/-- The configuration with a number for one of the settings that take one. -/
def withNumber (c : Config) (n : Nat) : Setting → Config
  | .sandboxRoot => c
  | .maxIncludeDepth => { c with limits := { c.limits with depth := n } }
  | .maxIncludes => { c with limits := { c.limits with includes := n } }
  | .maxIncludeBytes => { c with includeBytes := n }
  | .includeTimeout => { c with includeTimeout := n }
  | .maxOutputBytes => { c with limits := { c.limits with bytes := n } }
  | .maxNesting => { c with limits := { c.limits with nesting := n } }
  | .cacheCapacity => { c with cacheCapacity := n }

/-- The configuration with one more setting from its entry. -/
def withEntry (c : Config) (name : String) (v : Toml) : Except ConfigError Config :=
  match Setting.ofName? name with
  | none => .error (.unknownSetting name)
  | some .sandboxRoot =>
    match v with
    | .string s => .ok { c with sandboxRoot := some s }
    | other => .error (.wrongType .sandboxRoot other)
  | some setting =>
    match v with
    | .integer n =>
      if n < 0 then .error (.negative setting n) else .ok (c.withNumber n.toNat setting)
    | other => .error (.wrongType setting other)

/-- The configuration with the settings of a list of entries. -/
def withEntries (c : Config) : List (String × Toml) → Except ConfigError Config
  | [] => .ok c
  | (name, v) :: rest => do
    let c ← c.withEntry name v
    withEntries c rest

/-- The configuration that a text is. -/
def read (source : String) : Except ConfigError Config :=
  match Toml.read? source with
  | none => .error .malformed
  | some entries => standard.withEntries entries

/-- The configuration as it reads in a file at `path`: a relative path for includes starts from
the directory of the file. -/
def seenFrom (c : Config) (path : String) : Config :=
  let place (root : String) : String :=
    if Path.isAbsolute root.toList then root
    else String.ofList (Path.append (Path.parent path.toList) root.toList)
  { c with sandboxRoot := c.sandboxRoot.map place }

/-- The configuration in the file at a path. -/
def load (files : FileTree) (home : Place) (path : String) : Except ConfigError Config := do
  let source ← (files.readText home path).mapError ConfigError.unreadable
  let c ← read source
  return c.seenFrom path

end Config

end Stencil
