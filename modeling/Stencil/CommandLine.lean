import Stencil.Engine
import Stencil.Report

/-!
# The command line

The program reads one request, from a file or from its input, and writes the answer. Options
name the configuration and the directory for includes, and say how the answer is written.
`Options.read` reads the arguments; `CommandLine.run` says what is written and the exit
status, for the files as they are.
-/

namespace Stencil

/-- What the arguments ask for. -/
structure Options where
  /-- The file of the request; without one the request is read from the input. -/
  input : Option String
  /-- The file of the configuration. -/
  config : Option String
  /-- The directory for includes. -/
  sandbox : Option String
  /-- Whether only the rendered text is written. -/
  raw : Bool
  /-- Whether failures are reported in full. -/
  verbose : Bool
  deriving DecidableEq, Repr

/-- What the arguments come to. -/
inductive Invocation where
  /-- A request to answer. -/
  | answer (options : Options)
  /-- A question how the program is used. -/
  | help
  /-- Arguments that do not make sense. -/
  | misuse
  deriving DecidableEq, Repr

namespace Options

/-- No options. -/
def none : Options := ⟨.none, .none, .none, false, false⟩

/-- An option or a flag. -/
inductive Key where
  /-- The file of the configuration. -/
  | config
  /-- The directory for includes. -/
  | sandbox
  /-- Only the rendered text is written. -/
  | raw
  /-- Failures are reported in full. -/
  | verbose
  /-- How the program is used. -/
  | help
  deriving DecidableEq, Repr

/-- The long name of an option or flag. -/
def Key.name : Key → List Char
  | config => "config".toList
  | sandbox => "sandbox".toList
  | raw => "raw".toList
  | verbose => "verbose".toList
  | help => "help".toList

/-- The short name of an option or flag: the first letter of its long one. -/
def Key.letter? (k : Key) : Option Char := k.name.head?

/-- All options and flags. -/
def Key.all : List Key := [config, sandbox, raw, verbose, help]

/-- Whether a value belongs to it. -/
def Key.takesValue : Key → Bool
  | config | sandbox => true
  | raw | verbose | help => false

/-- The options with a value, which may not be empty and may be given once. -/
def withValue? (o : Options) (k : Key) (value : String) : Option Options :=
  if value.isEmpty then .none
  else
    match k with
    | .config => if o.config.isSome then .none else some { o with config := some value }
    | .sandbox => if o.sandbox.isSome then .none else some { o with sandbox := some value }
    | _ => .none

/-- The options with the file of the request. -/
def withInput? (o : Options) (value : String) : Option Options :=
  if value.isEmpty || o.input.isSome then .none else some { o with input := some value }

/-- What follows the options read so far. -/
inductive Next where
  /-- More arguments. -/
  | goOn (o : Options)
  /-- The value of an option. -/
  | value (k : Key) (o : Options)
  /-- Nothing: what the arguments come to is known. -/
  | settled (i : Invocation)

/-- Goes on, unless something was wrong. -/
def Next.ofOption (o : Option Options) : Next :=
  match o with
  | some o => goOn o
  | .none => settled .misuse

/-- The options with a flag, which may be given once. -/
def flag (o : Options) : Key → Next
  | .raw => if o.raw then .settled .misuse else .goOn { o with raw := true }
  | .verbose => if o.verbose then .settled .misuse else .goOn { o with verbose := true }
  | .help => .settled .help
  | _ => .settled .misuse

/-- Reads the letters of an argument that begins with one dash; what follows the letter of an
option is its value. -/
def letters (o : Options) : List Char → Next
  | [] => .goOn o
  | c :: cs =>
    match Key.all.find? (·.letter? == some c) with
    | .none => .settled .misuse
    | some k =>
      if k.takesValue then
        match cs with
        | [] => .value k o
        | '=' :: value => .ofOption (o.withValue? k (String.ofList value))
        | value => .ofOption (o.withValue? k (String.ofList value))
      else
        match o.flag k with
        | .goOn o => letters o cs
        | next => next

/-- Reads an argument that begins with two dashes, from after them. -/
def long (o : Options) (cs : List Char) : Next :=
  match Key.all.find? (·.name == cs.takeWhile (· != '=')), cs.dropWhile (· != '=') with
  | .none, _ => .settled .misuse
  | some k, [] => if k.takesValue then .value k o else o.flag k
  | some k, _ :: value =>
    if k.takesValue then .ofOption (o.withValue? k (String.ofList value)) else .settled .misuse

/-- Whether an argument is a value: it begins with no dash, or is one. -/
def isValue (argument : String) : Bool := argument == "-" || argument.toList.head? != some '-'

/-- Reads an argument that is not just two dashes. -/
def argument (o : Options) (a : String) : Next :=
  if isValue a then .ofOption (o.withInput? a)
  else
    match a.toList with
    | '-' :: '-' :: name => o.long name
    | _ :: cs => o.letters cs
    | [] => .settled .misuse

/-- Reads the arguments after two dashes: each is a file. -/
def files (o : Options) : List String → Invocation
  | [] => .answer o
  | a :: rest =>
    match o.withInput? a with
    | some o => files o rest
    | .none => .misuse

/-- Reads arguments, in addition to the options so far. -/
def readFrom (o : Options) : List String → Invocation
  | [] => .answer o
  | a :: rest =>
    if a = "--" then o.files rest
    else
      match o.argument a, rest with
      | .settled i, _ => i
      | .goOn o, rest => readFrom o rest
      | .value k o, v :: rest =>
        if isValue v then
          match o.withValue? k v with
          | some o => readFrom o rest
          | .none => .misuse
        else .misuse
      | .value _ _, [] => .misuse

/-- What the arguments of the program come to. -/
def read (arguments : List String) : Invocation := none.readFrom arguments

end Options

/-- What the program leaves behind. -/
structure Exit where
  /-- The exit status. -/
  status : Nat
  /-- What it wrote. -/
  output : String
  /-- What it wrote about problems: messages and reports. The lines of its log go the same way,
  more of them with `--verbose`, and are left out here. -/
  complaints : String
  deriving DecidableEq, Repr

namespace CommandLine

/-- The exit status of a request that was answered with a text. -/
def success : Nat := 0

/-- The exit status of everything that went wrong. -/
def failure : Nat := 1

/-- The exit status for arguments that do not make sense. -/
def misuse : Nat := 2

/-- The exit status of a program that broke off. -/
def brokenOff : Nat := 101

/-- An exit with nothing but a complaint. -/
def complain (complaint : String) : Exit := ⟨failure, "", complaint ++ "\n"⟩

/-- The configuration that the options ask for. -/
def configOf (files : FileTree) (home : Place) (o : Options) : Except String Config := do
  let config ←
    match o.config with
    | none => pure Config.standard
    | some path =>
      (Config.load files home path).mapError fun e =>
        "Error loading config '" ++ path ++ "': " ++ e.message
  return match o.sandbox with
    | none => config
    | some root => { config with sandboxRoot := some root }

/-- The text of the request. -/
def bodyOf (files : FileTree) (home : Place) (o : Options) (input : ByteArray) :
    Except String String :=
  match o.input with
  | some path =>
    (files.readText home path).mapError fun e =>
      "Error reading file '" ++ path ++ "': " ++ e.message
  | none =>
    (FileTree.contentOf (.file input)).mapError fun e =>
      "Error reading from stdin: " ++ e.message

/-- What is reported of a failed render: a failure inside an include is not, and neither is one
that has no place. A place that cannot be drawn breaks the program off. -/
def reportOf (d : Diagnostic) (r : RenderRequest) : Option String :=
  match d.origin, r.template, d.span with
  | none, some template, some _ => (d.report? template "template").map (· ++ "\n")
  | _, _, _ => some ""

/-- What is reported of the outcome of a request. -/
def reportOfResult (o : Options) (r : RenderRequest) : Except Diagnostic String → Option String
  | .error d => if o.verbose then reportOf d r else some ""
  | .ok _ => some ""

/-- The exit for a response, after a report. What is logged on the way is not part of it. -/
def exitOf (o : Options) (report : String) (response : Response) : Exit :=
  let status := if response.isSuccess then success else failure
  if o.raw then
    match response.result? with
    | some text => ⟨status, text, report⟩
    | none =>
      let message :=
        match response.body with
        | .object fields =>
          match Fields.get? "message" fields with
          | some (.string message) => message
          | _ => "render failed"
        | _ => "render failed"
      ⟨status, "", report ++ "Error: " ++ message ++ "\n"⟩
  else ⟨status, response.bodyText ++ "\n", report⟩

/-- Answers the text of a request. -/
def answer (files : FileTree) (e : Engine) (o : Options) (body : String) : Exit :=
  match RenderRequest.read body with
  | .error error => exitOf o "" (.failure error.diagnostic)
  | .ok r =>
    let result := (e.renderRequest files e.newCache r).1
    match reportOfResult o r result with
    | some report => exitOf o report (.ofResult result)
    | none => ⟨brokenOff, "", "The place of the failure cannot be shown\n"⟩

/-- Answers the request that the options name. -/
def runWith (files : FileTree) (home : Place) (o : Options) (input : ByteArray) : Exit :=
  match configOf files home o with
  | .error complaint => complain complaint
  | .ok config =>
    match Engine.ofConfig files home config with
    | .error e => complain ("Error: " ++ e.message)
    | .ok engine =>
      match bodyOf files home o input with
      | .error complaint => complain complaint
      | .ok body => answer files engine o body

/-- How the program is used. -/
def usage : String :=
  "Render templates from JSON render requests\n\n"
    ++ "Usage: stencil [OPTIONS] [FILE]\n\n"
    ++ "  -c, --config FILE    Engine configuration (TOML file)\n"
    ++ "  -s, --sandbox DIR    Directory includes are resolved against\n"
    ++ "  -r, --raw            Print only the rendered text\n"
    ++ "  -v, --verbose        Annotated template errors\n"
    ++ "  -h, --help           Print help\n"

/-- Runs the program with its arguments in the directory `home`. -/
def run (files : FileTree) (home : Place) (arguments : List String) (input : ByteArray) : Exit :=
  match Options.read arguments with
  | .answer o => runWith files home o input
  | .help => ⟨success, usage, ""⟩
  | .misuse => ⟨misuse, "", usage⟩

end CommandLine

end Stencil
