import Stencil.Proofs.Document.Nesting
import Stencil.Proofs.Render.LookUps

/-!
# Raising the limits of a render

A render that is given larger limits goes the same way as far as the smaller ones let it go. So it
ends the same, with the same text or the same failure, unless what stopped it was one of the smaller
limits (`template_eq_or_exceeded`): no other check fires earlier because a limit was raised, and no
template is parsed otherwise.
-/

namespace Stencil

/-- No limit is larger than the other one of its kind. -/
structure Limits.AtMost (a b : Limits) : Prop where
  /-- How deep includes may nest. -/
  depth : a.depth ≤ b.depth
  /-- How many includes there may be. -/
  includes : a.includes ≤ b.includes
  /-- How many bytes there may be. -/
  bytes : a.bytes ≤ b.bytes
  /-- How deep blocks and parentheses may nest. -/
  nesting : a.nesting ≤ b.nesting

/-- The failure of a render is that one of these limits is exceeded. -/
inductive Limits.Exceeded (limits : Limits) (d : Diagnostic) : Prop where
  /-- Includes nest too deep. -/
  | depth (h : d.Reports (.tooDeep limits.depth))
  /-- There are too many includes. -/
  | includes (h : d.Reports (.tooMany limits.includes))
  /-- The output is too large. -/
  | bytes (h : d.Reports (.tooLarge limits.bytes))
  /-- Blocks or parentheses of a template nest too deep. -/
  | nesting (hk : d.kind = .parseError)
      (hm : d.message = (ParseError.Cause.tooDeep limits.nesting).message)

theorem Limits.exceeded_ofParseError (limits : Limits) (span : Span) (source : String)
    (origin : Option String) :
    limits.Exceeded (((Diagnostic.ofParseError ⟨.tooDeep limits.nesting, span⟩).locate
      source).withOrigin origin) :=
  .nesting rfl rfl

namespace Render

/-- Two steps are the same, or the first failed because a limit is exceeded. -/
def SameOrExceeded (limits : Limits) (o o' : Outcome) : Prop :=
  o = o' ∨ ∃ d, o.failure = some d ∧ limits.Exceeded d

theorem SameOrExceeded.andThen {limits : Limits} {o o' : Outcome} {next next' : Progress → Outcome}
    (h : SameOrExceeded limits o o')
    (hn : ∀ p, o = .ok p → SameOrExceeded limits (next p) (next' p)) :
    SameOrExceeded limits (o.andThen next) (o'.andThen next') := by
  obtain rfl | ⟨d, hd, he⟩ := h
  · obtain ⟨_ | d, p⟩ := o
    · exact hn p rfl
    · exact .inl rfl
  · obtain ⟨failure, p⟩ := o
    obtain rfl : failure = some d := hd
    exact .inr ⟨d, rfl, he⟩

variable {params : Params} {mode : Mode} {resolver : Resolver} {limits limits' : Limits}

theorem append_sameOrExceeded (h : limits.AtMost limits') (frame : Frame) (span : Span)
    (text : String) (p : Progress) :
    SameOrExceeded limits (append ⟨params, mode, resolver, limits⟩ frame span text p)
      (append ⟨params, mode, resolver, limits'⟩ frame span text p) := by
  by_cases hb : limits.bytes < p.output.utf8ByteSize + text.utf8ByteSize
  · rw [append, if_pos hb]
    exact .inr ⟨_, rfl, .bytes (frame.reports_failure _ span)⟩
  · have hb' : ¬ limits'.bytes < p.output.utf8ByteSize + text.utf8ByteSize :=
      fun hlt => hb (Nat.lt_of_le_of_lt h.bytes hlt)
    rw [append, append, if_neg hb, if_neg hb']
    exact .inl rfl

/-- Without a cache an include is fetched the same way under larger limits, unless a limit is
exceeded. -/
theorem fetch_eq_or_exceeded (h : limits.AtMost limits') (frame : Frame) (span : Span)
    (path : String) {p : Progress} (hp : p.cache = none) :
    fetch ⟨params, mode, resolver, limits⟩ frame span path p =
        fetch ⟨params, mode, resolver, limits'⟩ frame span path p ∨
      ∃ d, (fetch ⟨params, mode, resolver, limits⟩ frame span path p).1 = .error d ∧
        limits.Exceeded d := by
  by_cases hi : limits.includes ≤ p.includes
  · rw [fetch_tooMany span hi]
    exact .inr ⟨_, rfl, .includes (frame.reports_failure _ span)⟩
  have hlt : p.includes < limits.includes := Nat.not_le.1 hi
  have hlt' : p.includes < limits'.includes := Nat.lt_of_lt_of_le hlt h.includes
  cases hr : resolver path with
  | error e =>
    rw [fetch_refused span hlt hr, fetch_refused span hlt' hr]
    exact .inl rfl
  | ok r =>
    by_cases hk : r.key ∈ frame.keys
    · rw [fetch_open span hlt hr hk, fetch_open span hlt' hr hk]
      exact .inl rfl
    rw [fetch_found span hlt hr hk, fetch_found span hlt' hr hk, hp, Cache.lookUp_none,
      Cache.lookUp_none]
    obtain heq | ⟨s, hs⟩ := (Document.parse_capped h.nesting r.content).eq_or_tooDeep
    · simp only [heq]
      exact .inl trivial
    · simp only [hs]
      exact .inr ⟨_, rfl, limits.exceeded_ofParseError s r.content (some r.key)⟩

/-- **Without a cache a walk goes the same way under larger limits**, unless a limit is exceeded. -/
theorem walk_sameOrExceeded (h : limits.AtMost limits') :
    (∀ frame list p, p.cache = none →
      SameOrExceeded limits (nodes ⟨params, mode, resolver, limits⟩ frame list p)
        (nodes ⟨params, mode, resolver, limits'⟩ frame list p)) ∧
    ∀ frame n p, p.cache = none →
      SameOrExceeded limits (node ⟨params, mode, resolver, limits⟩ frame n p)
        (node ⟨params, mode, resolver, limits'⟩ frame n p) := by
  refine @walk_induction ⟨params, mode, resolver, limits⟩ _ _
    ?nil ?cons ?literal ?interpolation ?conditional ?inclusion
  case nil =>
    intro frame p _
    rw [nodes_nil, nodes_nil]
    exact .inl rfl
  case cons =>
    intro frame n ns p ihn ihns hp
    rw [nodes_cons, nodes_cons]
    refine (ihn hp).andThen fun q hq => ihns q ?_
    have hcache := cache_node_eq_none ⟨params, mode, resolver, limits⟩ frame n hp
    rwa [hq] at hcache
  case literal =>
    intro frame text span p _
    rw [node_literal, node_literal]
    exact append_sameOrExceeded h frame span text p
  case interpolation =>
    intro frame name span p _
    rw [node_interpolation, node_interpolation]
    exact append_sameOrExceeded h frame span _ p
  case conditional =>
    intro frame branches otherwise span p ih hp
    rw [node_conditional, node_conditional]
    cases hs : select params branches otherwise with
    | none => exact .inl rfl
    | some body => exact ih body hs hp
  case inclusion =>
    intro frame path span p ih hp
    by_cases hd : frame.keys.length < limits.depth
    · rw [node_inclusion _ _ _ _ _ hd, node_inclusion _ _ _ _ _ (Nat.lt_of_lt_of_le hd h.depth)]
      obtain heq | ⟨d, hf, he⟩ := fetch_eq_or_exceeded h frame span path hp
      · rw [← heq]
        rcases hf : fetch ⟨params, mode, resolver, limits⟩ frame span path p with ⟨d | ⟨r, d⟩, q⟩
        · exact .inl rfl
        · obtain ⟨-, -, -, -, rfl⟩ := (fetch_eq_ok_iff span).1 hf
          refine ih r d _ hd hf ?_
          rw [hp, Cache.lookUp_none]
      · rcases hq : fetch ⟨params, mode, resolver, limits⟩ frame span path p with ⟨x, q⟩
        rw [hq] at hf
        obtain rfl : x = .error d := hf
        exact .inr ⟨d, rfl, he⟩
    · rw [node_tooDeep _ _ _ _ _ (Nat.not_lt.1 hd)]
      exact .inr ⟨_, rfl, .depth (frame.reports_failure _ span)⟩

theorem template_none_eq_or_exceeded (h : limits.AtMost limits') (source : String) :
    (template ⟨params, mode, resolver, limits⟩ none source).1 =
        (template ⟨params, mode, resolver, limits'⟩ none source).1 ∨
      ∃ d, (template ⟨params, mode, resolver, limits⟩ none source).1 = .error d ∧
        limits.Exceeded d := by
  rw [template_none_fst, template_none_fst]
  obtain heq | ⟨s, hs⟩ := (Document.parse_capped h.nesting source).eq_or_tooDeep
  · rw [heq]
    cases Document.parse limits'.nesting source with
    | error e => exact .inl rfl
    | ok d =>
      have hwalk : SameOrExceeded limits (document ⟨params, mode, resolver, limits⟩ none source d)
          (document ⟨params, mode, resolver, limits'⟩ none source d) :=
        (walk_sameOrExceeded h).1 ⟨source, []⟩ d.nodes ⟨"", 0, none⟩ rfl
      obtain hsame | ⟨e, hf, he⟩ := hwalk
      · exact .inl (congrArg Outcome.result hsame)
      · refine .inr ⟨e, ?_, he⟩
        simp only [Outcome.result, hf]
  · rw [hs]
    exact .inr ⟨_, rfl, .nesting rfl rfl⟩

/-- **Raising the limits only removes failures that report a limit.** With or without caches, as
long as these answer right, a render has the same text or the same failure under larger limits,
unless it failed because includes nested too deep, were too many, the output was too large, or
blocks or parentheses of a template nested too deep for the smaller ones. -/
theorem template_eq_or_exceeded (h : limits.AtMost limits') {cache cache' : Option Cache}
    {source : String} (hc : AnswersRight ⟨params, mode, resolver, limits⟩ cache source)
    (hc' : AnswersRight ⟨params, mode, resolver, limits'⟩ cache' source) :
    (template ⟨params, mode, resolver, limits⟩ cache source).1 =
        (template ⟨params, mode, resolver, limits'⟩ cache' source).1 ∨
      ∃ d, (template ⟨params, mode, resolver, limits⟩ cache source).1 = .error d ∧
        limits.Exceeded d := by
  rw [hc.template_fst, hc'.template_fst]
  exact template_none_eq_or_exceeded h source

/-- With one more byte the text fits, and what fails then is the include after it. -/
theorem template_eq_or_exceeded_of_one_byte :
    let small : Limits := ⟨1, 1, 1, 0⟩
    let large : Limits := ⟨1, 1, 2, 0⟩
    let source := "é[% include 'k' %]"
    small.AtMost large ∧
      (template ⟨.empty, .xml, .none, large⟩ none source).1 =
        .error ⟨.sandboxViolation, "includes are disabled: k", some ⟨2, 19⟩, some ⟨2, 1, 2⟩,
          none⟩ ∧
      ∃ d, (template ⟨.empty, .xml, .none, small⟩ (some (.empty 2)) source).1 = .error d ∧
        small.Exceeded d := by
  intro small large source
  have h : small.AtMost large := by constructor <;> decide
  have hparse : Document.parse 0 source = .ok ⟨[.literal "é" ⟨0, 2⟩, .inclusion "k" ⟨2, 19⟩]⟩ := by
    cbv
  have hlarge : (template ⟨.empty, .xml, .none, large⟩ none source).1 =
      .error ⟨.sandboxViolation, "includes are disabled: k", some ⟨2, 19⟩, some ⟨2, 1, 2⟩,
        none⟩ := by
    rw [template_of_parse hparse, nodes_cons, node_literal, append_of_le _ (by decide),
      Outcome.ok_andThen, nodes_cons, node_inclusion _ _ _ _ _ (by decide),
      fetch_refused _ (by decide) rfl]
    dsimp only [source]
    rfl
  have hsmall : (template ⟨.empty, .xml, .none, small⟩ none source).1 =
      .error ⟨.evaluationError, "output exceeds the limit of 1 bytes", some ⟨0, 2⟩,
        some ⟨0, 1, 1⟩, none⟩ := by
    rw [template_of_parse hparse, nodes_cons, node_literal, append_of_lt _ (by decide)]
    dsimp only [source, small]
    rfl
  have hc := answersRight_empty ⟨.empty, .xml, .none, small⟩ (by decide) 2 source
  refine ⟨h, hlarge, (template_eq_or_exceeded h hc (answersRight_none _ source)).resolve_left ?_⟩
  rw [hc.template_fst, hsmall, hlarge]
  decide

end Render

end Stencil
