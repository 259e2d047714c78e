import Stencil.Render

/-!
# The steps of a render

One equation for each kind of node, what it takes for an include to be fetched, and the induction
on a walk: over the nodes of the template, the bodies that are taken, and the includes that are
entered.
-/

namespace Stencil

/-- A render failed because it went beyond what it may do. -/
def Diagnostic.Reports (d : Diagnostic) (e : LimitError) : Prop :=
  d.kind = .evaluationError ∧ d.message = e.message

namespace Render

/-! ### Outcomes -/

theorem Frame.reports_failure (f : Frame) (e : LimitError) (span : Span) :
    (f.failure .evaluationError e.message span).Reports e :=
  ⟨rfl, rfl⟩

namespace Outcome

theorem andThen_eq_ok_iff {o : Outcome} {next : Progress → Outcome} {p : Progress} :
    o.andThen next = ok p ↔ ∃ q, o = ok q ∧ next q = ok p := by
  obtain ⟨failure, q⟩ := o
  cases failure with
  | none => simp [andThen, ok]
  | some d => simp [andThen, ok]

theorem fail_ne_ok (d : Diagnostic) (p q : Progress) : fail d p ≠ ok q := by
  simp [fail, ok]

theorem result_eq_ok_iff {o : Outcome} {text : String} :
    o.result = .ok text ↔ ∃ p, o = ok p ∧ p.output = text := by
  obtain ⟨failure, p⟩ := o
  cases failure with
  | none => simp [result, ok]
  | some d => simp [result, ok]

end Outcome

/-! ### Nodes -/

variable (job : Job) (frame : Frame) (p : Progress)

@[simp] theorem nodes_nil : nodes job frame [] p = .ok p := by
  rw [nodes]

theorem nodes_cons (n : Node) (ns : List Node) :
    nodes job frame (n :: ns) p = (node job frame n p).andThen fun p => nodes job frame ns p := by
  rw [nodes]

theorem node_literal (text : String) (span : Span) :
    node job frame (.literal text span) p = append job frame span text p := by
  rw [node]

theorem node_interpolation (name : String) (span : Span) :
    node job frame (.interpolation name span) p =
      append job frame span (job.mode.substitute (job.params.text name)) p := by
  rw [node]

theorem node_conditional (branches : List Branch) (otherwise : Option (List Node)) (span : Span) :
    node job frame (.conditional branches otherwise span) p =
      match select job.params branches otherwise with
      | none => .ok p
      | some body => nodes job frame body p := by
  rw [node]
  split <;> simp_all

theorem node_tooDeep (path : String) (span : Span) (h : job.limits.depth ≤ frame.keys.length) :
    node job frame (.inclusion path span) p =
      .fail (frame.failure .evaluationError (LimitError.tooDeep job.limits.depth).message span)
        p := by
  rw [node, dif_pos h]

theorem node_inclusion (path : String) (span : Span) (h : frame.keys.length < job.limits.depth) :
    node job frame (.inclusion path span) p =
      match fetch job frame span path p with
      | (.error d, q) => .fail d q
      | (.ok (r, document), q) => nodes job (frame.enter r) document.nodes q := by
  rw [node]
  exact dif_neg (Nat.not_le.2 h)

theorem append_eq_ok_iff {job : Job} {frame : Frame} {span : Span} {text : String}
    {p q : Progress} :
    append job frame span text p = .ok q ↔
      p.output.utf8ByteSize + text.utf8ByteSize ≤ job.limits.bytes ∧
      q = { p with output := p.output ++ text } := by
  unfold append
  split
  · next h =>
    simp only [Outcome.fail_ne_ok, false_iff, not_and]
    omega
  · next h =>
    simp only [Outcome.ok, Outcome.mk.injEq, true_and]
    exact ⟨fun hq => ⟨by omega, hq.symm⟩, fun hq => hq.2.symm⟩

theorem append_of_le {job : Job} {frame : Frame} {text : String} {p : Progress} (span : Span)
    (h : p.output.utf8ByteSize + text.utf8ByteSize ≤ job.limits.bytes) :
    append job frame span text p = .ok { p with output := p.output ++ text } :=
  append_eq_ok_iff.2 ⟨h, rfl⟩

theorem append_of_lt {job : Job} {frame : Frame} {text : String} {p : Progress} (span : Span)
    (h : job.limits.bytes < p.output.utf8ByteSize + text.utf8ByteSize) :
    append job frame span text p =
      .fail (frame.failure .evaluationError (LimitError.tooLarge job.limits.bytes).message span)
        p := by
  rw [append, if_pos h]

/-! ### Includes -/

section

variable {job : Job} {frame : Frame} {path : String} {p : Progress} (span : Span)

theorem fetch_tooMany (h : job.limits.includes ≤ p.includes) :
    fetch job frame span path p =
      (.error
          (frame.failure .evaluationError (LimitError.tooMany job.limits.includes).message span),
        ⟨p.output, p.includes + 1, p.cache⟩) := by
  rw [fetch, if_pos (by simp only; omega)]

theorem fetch_refused (h : p.includes < job.limits.includes) {e : IncludeError}
    (hr : job.resolver path = .error e) :
    fetch job frame span path p =
      (.error (frame.failure .sandboxViolation e.message span),
        ⟨p.output, p.includes + 1, p.cache⟩) := by
  rw [fetch, if_neg (by simp only; omega), hr]

theorem fetch_open (h : p.includes < job.limits.includes) {r : Resolved}
    (hr : job.resolver path = .ok r) (hk : r.key ∈ frame.keys) :
    fetch job frame span path p =
      (.error (frame.failure .evaluationError
          (LimitError.cycle (r.key :: frame.keys).reverse).message span),
        ⟨p.output, p.includes + 1, p.cache⟩) := by
  rw [fetch, if_neg (by simp only; omega), hr]
  simp only [if_pos hk]

theorem fetch_found (h : p.includes < job.limits.includes) {r : Resolved}
    (hr : job.resolver path = .ok r) (hk : r.key ∉ frame.keys) :
    fetch job frame span path p =
      (match (Cache.lookUp p.cache job.limits.nesting r.content).1 with
        | .error e => .error (((Diagnostic.ofParseError e).locate r.content).withOrigin
            (some r.key))
        | .ok d => .ok (r, d),
        ⟨p.output, p.includes + 1, (Cache.lookUp p.cache job.limits.nesting r.content).2⟩) := by
  rw [fetch, if_neg (by simp only; omega), hr]
  simp only [if_neg hk]
  cases (Cache.lookUp p.cache job.limits.nesting r.content).1 <;> rfl

/-- **An include is fetched if there may be one more, its path leads to content, it is not open, and
the content parses.** -/
theorem fetch_eq_ok_iff {q : Progress} {r : Resolved} {d : Document} :
    fetch job frame span path p = (.ok (r, d), q) ↔
      p.includes < job.limits.includes ∧ job.resolver path = .ok r ∧ r.key ∉ frame.keys ∧
        (Cache.lookUp p.cache job.limits.nesting r.content).1 = .ok d ∧
        q = ⟨p.output, p.includes + 1, (Cache.lookUp p.cache job.limits.nesting r.content).2⟩ := by
  constructor
  · intro hf
    by_cases h : p.includes < job.limits.includes
    · cases hr : job.resolver path with
      | error e =>
        rw [fetch_refused span h hr] at hf
        cases hf
      | ok found =>
        by_cases hk : found.key ∈ frame.keys
        · rw [fetch_open span h hr hk] at hf
          cases hf
        · rw [fetch_found span h hr hk, Prod.mk.injEq] at hf
          obtain ⟨hf, rfl⟩ := hf
          split at hf
          · cases hf
          · next hd =>
            cases hf
            exact ⟨h, rfl, hk, hd, rfl⟩
    · rw [fetch_tooMany span (by omega)] at hf
      cases hf
  · rintro ⟨h, hr, hk, hd, rfl⟩
    rw [fetch_found span h hr hk, hd]

end

/-! ### Templates -/

/-- Without a cache a template gives what walking its document comes to, if it parses. -/
theorem template_none_fst (job : Job) (source : String) :
    (template job none source).1 =
      match Document.parse job.limits.nesting source with
      | .error e => .error ((Diagnostic.ofParseError e).locate source)
      | .ok d => (document job none source d).result := by
  rw [template, Cache.lookUp]
  cases Document.parse job.limits.nesting source <;> rfl

theorem template_of_parse {job : Job} {source : String} {d : Document}
    (h : Document.parse job.limits.nesting source = .ok d) :
    (template job none source).1 = (nodes job ⟨source, []⟩ d.nodes ⟨"", 0, none⟩).result := by
  rw [template_none_fst, h]
  rfl

/-- A template gives a text if it parses, and walking its document ends with this text. -/
theorem template_fst_eq_ok_iff {job : Job} {cache : Option Cache} {source text : String} :
    (template job cache source).1 = .ok text ↔
      ∃ d, (Cache.lookUp cache job.limits.nesting source).1 = .ok d ∧
        ∃ p, document job (Cache.lookUp cache job.limits.nesting source).2 source d = .ok p ∧
          p.output = text := by
  unfold template
  rcases Cache.lookUp cache job.limits.nesting source with ⟨e | d, cache'⟩
  · simp
  · simp [Outcome.result_eq_ok_iff]

/-! ### Induction on a walk -/

/-- Induction on a walk: a list by its first node and the rest, a conditional by the body that is
taken, an include by the template that is entered. -/
theorem walk_induction {job : Job} {P : Frame → List Node → Progress → Prop}
    {Q : Frame → Node → Progress → Prop}
    (nil : ∀ frame p, P frame [] p)
    (cons : ∀ frame n ns p, Q frame n p → (∀ q, P frame ns q) → P frame (n :: ns) p)
    (literal : ∀ frame text span p, Q frame (.literal text span) p)
    (interpolation : ∀ frame name span p, Q frame (.interpolation name span) p)
    (conditional : ∀ frame branches otherwise span p,
      (∀ body, select job.params branches otherwise = some body → P frame body p) →
      Q frame (.conditional branches otherwise span) p)
    (inclusion : ∀ frame path span p,
      (∀ r d q, frame.keys.length < job.limits.depth →
        fetch job frame span path p = (.ok (r, d), q) →
        P (frame.enter r) d.nodes q) →
      Q frame (.inclusion path span) p) :
    (∀ frame list p, P frame list p) ∧ ∀ frame n p, Q frame n p := by
  refine nodes.mutual_induct job P Q ?nil ?cons ?literal ?interpolation ?skipped ?taken ?tooDeep
    ?refused ?entered
  case nil => exact nil
  case cons => exact fun frame p n ns hn hns => cons frame n ns p hn hns
  case literal => exact fun frame p text span => literal frame text span p
  case interpolation => exact fun frame p name span => interpolation frame name span p
  case skipped =>
    intro frame p branches otherwise span h
    refine conditional frame branches otherwise span p fun body hb => ?_
    rw [h] at hb
    cases hb
  case taken =>
    intro frame p branches otherwise span body h ih
    refine conditional frame branches otherwise span p fun body' hb => ?_
    rw [h, Option.some.injEq] at hb
    exact hb ▸ ih
  case tooDeep =>
    intro frame p path span h
    exact inclusion frame path span p fun r d q hlt _ => absurd h (by omega)
  case refused =>
    intro frame p path span _ e q h
    refine inclusion frame path span p fun r d q' _ hf => ?_
    rw [h] at hf
    cases hf
  case entered =>
    intro frame p path span _ r d q h ih
    refine inclusion frame path span p fun r' d' q' _ hf => ?_
    rw [h] at hf
    cases hf
    exact ih

end Render

end Stencil
