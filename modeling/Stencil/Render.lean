import Stencil.Cache
import Stencil.Diagnostic
import Stencil.Include
import Stencil.Limits
import Stencil.Mode
import Stencil.Params

/-!
# Rendering

A document is walked from its first node to its last, and what each node contributes is
appended to one output. An include is looked up, parsed and walked in its turn, inside the
include that names it.

The walk ends because includes nest only so deep: every include that is entered adds its key
to the list of open ones, which is never longer than the limit, and within one template every
step goes to a smaller part of the document.
-/

namespace Stencil

/-- The value of a condition: which parameters are truthy decides it. -/
def Condition.test (params : Params) (c : Condition) : Bool := c.holds params.truthy

namespace Render

/-- What stays the same all through a render. -/
structure Job where
  /-- The parameters. -/
  params : Params
  /-- The output mode. -/
  mode : Mode
  /-- Where includes come from. -/
  resolver : Resolver
  /-- The limits. -/
  limits : Limits

/-- The template that is being walked, and the includes that are open. -/
structure Frame where
  /-- The text of the template. -/
  source : String
  /-- The keys of the open includes, the innermost first. -/
  keys : List String

/-- What a render has come to. -/
structure Progress where
  /-- The output so far. -/
  output : String
  /-- How many includes were asked for. -/
  includes : Nat
  /-- The cache, if there is one. -/
  cache : Option Cache

/-- A step of a render: the progress after it, and the failure it ended in, if it did. -/
structure Outcome where
  /-- Why the render cannot go on. -/
  failure : Option Diagnostic
  /-- The progress after the step. -/
  progress : Progress

namespace Outcome

/-- A step that succeeded. -/
def ok (p : Progress) : Outcome := ⟨none, p⟩

/-- A step that failed. -/
def fail (d : Diagnostic) (p : Progress) : Outcome := ⟨some d, p⟩

/-- Goes on unless the step failed. -/
@[inline] def andThen (o : Outcome) (next : Progress → Outcome) : Outcome :=
  match o.failure with
  | none => next o.progress
  | some _ => o

@[simp] theorem ok_andThen (p : Progress) (next : Progress → Outcome) :
    (ok p).andThen next = next p := rfl

@[simp] theorem fail_andThen (d : Diagnostic) (p : Progress) (next : Progress → Outcome) :
    (fail d p).andThen next = fail d p := rfl

end Outcome

namespace Frame

/-- The include that is being walked; nothing in the template of the render itself. -/
def origin (f : Frame) : Option String := f.keys.head?

/-- A failure at a span of the template. -/
def failure (f : Frame) (kind : DiagnosticKind) (message : String) (span : Span) : Diagnostic :=
  ((Diagnostic.of kind message).withSpan span f.source).withOrigin f.origin

/-- The frame of an include. -/
def enter (f : Frame) (r : Resolved) : Frame := ⟨r.content, r.key :: f.keys⟩

end Frame

/-- The body to walk: that of the first branch whose condition holds, else the last part. -/
def select (params : Params) : List Branch → Option (List Node) → Option (List Node)
  | [], otherwise => otherwise
  | b :: bs, otherwise =>
    if b.condition.test params then some b.body else select params bs otherwise

theorem sizeOf_select_lt {params : Params} {branches : List Branch}
    {otherwise : Option (List Node)} {body : List Node}
    (h : select params branches otherwise = some body) :
    sizeOf body < sizeOf branches + sizeOf otherwise := by
  induction branches with
  | nil =>
    simp only [select] at h
    subst h
    simp only [List.nil.sizeOf_spec, Option.some.sizeOf_spec]
    omega
  | cons b bs ih =>
    simp only [select] at h
    split at h
    · cases b with
      | mk c s bd =>
        simp only [Branch.body, Option.some.injEq] at h
        subst h
        simp only [List.cons.sizeOf_spec, Branch.mk.sizeOf_spec]
        omega
    · have := ih h
      simp only [List.cons.sizeOf_spec]
      omega

/-- Appends to the output, if there is room for it. -/
def append (job : Job) (frame : Frame) (span : Span) (text : String) (p : Progress) : Outcome :=
  if job.limits.bytes < p.output.utf8ByteSize + text.utf8ByteSize then
    .fail (frame.failure .evaluationError (LimitError.tooLarge job.limits.bytes).message span) p
  else .ok { p with output := p.output ++ text }

/-- Looks an include up and parses it. -/
def fetch (job : Job) (frame : Frame) (span : Span) (path : String) (p : Progress) :
    Except Diagnostic (Resolved × Document) × Progress :=
  let limit (e : LimitError) := frame.failure .evaluationError e.message span
  let p := { p with includes := p.includes + 1 }
  if job.limits.includes < p.includes then (.error (limit (.tooMany job.limits.includes)), p)
  else
    match job.resolver path with
    | .error e => (.error (frame.failure .sandboxViolation e.message span), p)
    | .ok r =>
      if r.key ∈ frame.keys then (.error (limit (.cycle (r.key :: frame.keys).reverse)), p)
      else
        let (document, cache) := Cache.lookUp p.cache job.limits.nesting r.content
        let p := { p with cache := cache }
        match document with
        | .error e =>
          (.error (((Diagnostic.ofParseError e).locate r.content).withOrigin (some r.key)), p)
        | .ok document => (.ok (r, document), p)

mutual

/-- Walks a list of nodes. -/
def nodes (job : Job) (frame : Frame) (list : List Node) (p : Progress) : Outcome :=
  match list with
  | [] => .ok p
  | n :: ns => (node job frame n p).andThen fun p => nodes job frame ns p
termination_by (job.limits.depth - frame.keys.length, sizeOf list)

/-- Walks a node. -/
def node (job : Job) (frame : Frame) (n : Node) (p : Progress) : Outcome :=
  match n with
  | .literal text span => append job frame span text p
  | .interpolation name span =>
    append job frame span (job.mode.substitute (job.params.text name)) p
  | .conditional branches otherwise _ =>
    match _h : select job.params branches otherwise with
    | none => .ok p
    | some body => nodes job frame body p
  | .inclusion path span =>
    if _h : job.limits.depth ≤ frame.keys.length then
      .fail (frame.failure .evaluationError (LimitError.tooDeep job.limits.depth).message span) p
    else
      match fetch job frame span path p with
      | (.error d, p) => .fail d p
      | (.ok (r, document), p) => nodes job (frame.enter r) document.nodes p
termination_by (job.limits.depth - frame.keys.length, sizeOf n)
decreasing_by
  · apply Prod.Lex.right
    have := sizeOf_select_lt _h
    simp only [Node.conditional.sizeOf_spec]
    omega
  · apply Prod.Lex.left
    simp only [Frame.enter, List.length_cons]
    omega

end

/-- Walks a document that was parsed from `source`. -/
def document (job : Job) (cache : Option Cache) (source : String) (d : Document) : Outcome :=
  nodes job ⟨source, []⟩ d.nodes ⟨"", 0, cache⟩

/-- The output of a render, unless it failed. -/
def Outcome.result (o : Outcome) : Except Diagnostic String :=
  match o.failure with
  | none => .ok o.progress.output
  | some d => .error d

/-- Parses and walks a template: its output, unless it failed, and the cache after it. -/
def template (job : Job) (cache : Option Cache) (source : String) :
    Except Diagnostic String × Option Cache :=
  match Cache.lookUp cache job.limits.nesting source with
  | (.error e, cache) => (.error ((Diagnostic.ofParseError e).locate source), cache)
  | (.ok d, cache) =>
    let o := document job cache source d
    (o.result, o.progress.cache)

end Render

end Stencil
