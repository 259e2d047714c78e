import Mathlib
import Stencil.Proofs.Render.LookUps

/-!
# Two renders of one template

One template is rendered twice, with the same includes and under the same limits, but with other
parameters and perhaps in another mode. If the same names are truthy in both, the renders take the
same branches and enter the same includes, and what they insert is all that can differ. If what they
insert is related, place by place, so are the outputs, and the renders fail alike
(`walk_inStep`). Only a limit on the size of the output can stop one of them and not the other, and
that only where related texts differ in size. So what is inserted is never read as a template: where
no output is too large, it has no say in whether a render fails, or how
(`failures_eq_of_truthy_eq`).
-/

namespace Stencil

namespace Render

/-! ### Related outputs -/

/-- Every text is related to itself, and texts are related if they are put together from related
ones. -/
structure Congruent (R : String → String → Prop) : Prop where
  /-- Literal text is related to itself. -/
  refl : ∀ s, R s s
  /-- Output grows by related texts. -/
  append : ∀ {s s' t t' : String}, R s s' → R t t' → R (s ++ t) (s' ++ t')

theorem congruent_eq : Congruent (· = ·) :=
  ⟨fun _ => rfl, fun hs ht => by rw [hs, ht]⟩

/-- Two jobs that differ only in what they insert for a name, and there by related texts. -/
structure Job.Twin (R : String → String → Prop) (a b : Job) : Prop where
  /-- The includes are the same. -/
  resolver_eq : a.resolver = b.resolver
  /-- The limits are the same. -/
  limits_eq : a.limits = b.limits
  /-- The same names are truthy. -/
  truthy_eq : ∀ name, a.params.truthy name = b.params.truthy name
  /-- What is inserted for a name is related. -/
  text : ∀ name,
    R (a.mode.substitute (a.params.text name)) (b.mode.substitute (b.params.text name))

/-- The outputs are related, and all else is the same. -/
structure Progress.Related (R : String → String → Prop) (p q : Progress) : Prop where
  /-- The outputs so far. -/
  output : R p.output q.output
  /-- The numbers of includes. -/
  includes_eq : p.includes = q.includes
  /-- The caches. -/
  cache_eq : p.cache = q.cache

theorem Progress.Related.eq {p q : Progress} (h : p.Related (· = ·) q) : p = q := by
  obtain ⟨output, includes, cache⟩ := p
  obtain ⟨houtput, hincludes, hcache⟩ := h
  simp only at houtput hincludes hcache
  rw [houtput, hincludes, hcache]

/-- The output was too large. -/
def Outcome.Overflows (bytes : Nat) (o : Outcome) : Prop :=
  ∃ d : Diagnostic, o.failure = some d ∧ d.kind = .evaluationError ∧
    d.message = (LimitError.tooLarge bytes).message

theorem Outcome.Overflows.andThen {bytes : Nat} {o : Outcome} (h : o.Overflows bytes)
    (next : Progress → Outcome) : (o.andThen next).Overflows bytes := by
  obtain ⟨failure, p⟩ := o
  obtain ⟨d, hf, hd⟩ := h
  simp only at hf
  subst hf
  exact ⟨d, rfl, hd⟩

/-- Two steps fail alike and have related outputs; or else one of them had too large an output, and
related texts may differ in size. -/
def InStep (R : String → String → Prop) (bytes : Nat) (o o' : Outcome) : Prop :=
  (o.failure = o'.failure ∧ o.progress.Related R o'.progress) ∨
  ((o.Overflows bytes ∨ o'.Overflows bytes) ∧
    ∃ s s', R s s' ∧ s.utf8ByteSize ≠ s'.utf8ByteSize)

variable {R : String → String → Prop} {bytes : Nat} {o o' : Outcome}

theorem InStep.ok {p q : Progress} (h : p.Related R q) : InStep R bytes (.ok p) (.ok q) :=
  .inl ⟨rfl, h⟩

theorem InStep.fail {p q : Progress} (h : p.Related R q) (d : Diagnostic) :
    InStep R bytes (.fail d p) (.fail d q) :=
  .inl ⟨rfl, h⟩

theorem InStep.andThen {next next' : Progress → Outcome} (h : InStep R bytes o o')
    (hn : ∀ p q : Progress, p.Related R q → InStep R bytes (next p) (next' q)) :
    InStep R bytes (o.andThen next) (o'.andThen next') := by
  rcases h with ⟨hf, hp⟩ | ⟨ho | ho, hs⟩
  · obtain ⟨failure, p⟩ := o
    obtain ⟨failure', q⟩ := o'
    simp only at hf hp
    subst hf
    cases failure with
    | none => exact hn p q hp
    | some d => exact .fail hp d
  · exact .inr ⟨.inl (ho.andThen next), hs⟩
  · exact .inr ⟨.inr (ho.andThen next'), hs⟩

/-- Two successes in step have related outputs. -/
theorem InStep.output {p q : Progress} (h : InStep R bytes (.ok p) (.ok q)) :
    R p.output q.output := by
  rcases h with ⟨-, hp⟩ | ⟨⟨d, hd, -⟩ | ⟨d, hd, -⟩, -⟩
  · exact hp.output
  · cases hd
  · cases hd

/-- Where related texts are equal, steps in step are equal. -/
theorem InStep.eq (h : InStep (· = ·) bytes o o') : o = o' := by
  rcases h with ⟨hf, hp⟩ | ⟨-, s, s', rfl, hs⟩
  · obtain ⟨failure, p⟩ := o
    obtain ⟨failure', q⟩ := o'
    simp only at hf hp
    rw [hf, hp.eq]
  · exact absurd rfl hs

/-! ### Steps in step -/

section

variable {a b : Job} {frame : Frame} {p q : Progress}

theorem append_inStep (hR : Congruent R) (hl : a.limits = b.limits) (hp : p.Related R q)
    {text text' : String} (ht : R text text') (span : Span) :
    InStep R b.limits.bytes (append a frame span text p) (append b frame span text' q) := by
  have hsize : ∀ s t : String, s.utf8ByteSize + t.utf8ByteSize = (s ++ t).utf8ByteSize :=
    fun s t => (String.utf8ByteSize_append ..).symm
  have happ : R (p.output ++ text) (q.output ++ text') := hR.append hp.output ht
  unfold append
  rw [hl, hsize, hsize]
  -- Where only one of the two finds the output too large, the outputs are related and differ in size.
  split
  · next h =>
    split
    · exact .fail hp _
    · next h' => exact .inr ⟨.inl ⟨_, rfl, rfl, rfl⟩, _, _, happ, by omega⟩
  · next h =>
    split
    · next h' => exact .inr ⟨.inr ⟨_, rfl, rfl, rfl⟩, _, _, happ, by omega⟩
    · exact .ok ⟨happ, hp.includes_eq, hp.cache_eq⟩

theorem select_eq_of_truthy_eq {params params' : Params}
    (h : ∀ name, params.truthy name = params'.truthy name) (branches : List Branch)
    (otherwise : Option (List Node)) :
    select params branches otherwise = select params' branches otherwise := by
  have htest : ∀ c : Condition, c.test params = c.test params' := fun c => by
    rw [Condition.test, Condition.test, funext h]
  induction branches with
  | nil => rfl
  | cons b bs ih => rw [select, select, htest, ih]

/-- What an include leads to does not depend on what is inserted. -/
theorem fetch_related (hr : a.resolver = b.resolver) (hl : a.limits = b.limits)
    (hp : p.Related R q) (frame : Frame) (span : Span) (path : String) :
    (fetch a frame span path p).1 = (fetch b frame span path q).1 ∧
      (fetch a frame span path p).2.Related R (fetch b frame span path q).2 := by
  obtain ⟨houtput, hincludes, hcache⟩ := hp
  by_cases hi : q.includes < b.limits.includes
  · cases hres : b.resolver path with
    | error e =>
      rw [fetch_refused span hi hres,
        fetch_refused span (by rwa [hincludes, hl]) (by rwa [hr])]
      exact ⟨rfl, houtput, by rw [hincludes], hcache⟩
    | ok r =>
      by_cases hk : r.key ∈ frame.keys
      · rw [fetch_open span hi hres hk,
          fetch_open span (by rwa [hincludes, hl]) (by rwa [hr]) hk]
        exact ⟨rfl, houtput, by rw [hincludes], hcache⟩
      · rw [fetch_found span hi hres hk,
          fetch_found span (by rwa [hincludes, hl]) (by rwa [hr]) hk, hcache, hl]
        exact ⟨rfl, houtput, by rw [hincludes], rfl⟩
  · rw [fetch_tooMany span (Nat.not_lt.1 hi),
      fetch_tooMany span (by rw [hincludes, hl]; exact Nat.not_lt.1 hi), hl]
    exact ⟨rfl, houtput, by rw [hincludes], hcache⟩

/-- **Two renders that insert related texts stay in step.** -/
theorem walk_inStep (hR : Congruent R) (h : a.Twin R b) :
    (∀ frame list p, ∀ q : Progress, p.Related R q →
      InStep R b.limits.bytes (nodes a frame list p) (nodes b frame list q)) ∧
    ∀ frame n p, ∀ q : Progress, p.Related R q →
      InStep R b.limits.bytes (node a frame n p) (node b frame n q) := by
  refine @walk_induction a _ _ ?nil ?cons ?literal ?interpolation ?conditional ?inclusion
  case nil =>
    intro frame p q hp
    rw [nodes_nil, nodes_nil]
    exact .ok hp
  case cons =>
    intro frame n ns p ihn ihns q hp
    rw [nodes_cons, nodes_cons]
    exact (ihn q hp).andThen ihns
  case literal =>
    intro frame text span p q hp
    rw [node_literal, node_literal]
    exact append_inStep hR h.limits_eq hp (hR.refl text) span
  case interpolation =>
    intro frame name span p q hp
    rw [node_interpolation, node_interpolation]
    exact append_inStep hR h.limits_eq hp (h.text name) span
  case conditional =>
    intro frame branches otherwise span p ih q hp
    rw [node_conditional, node_conditional, ← select_eq_of_truthy_eq h.truthy_eq]
    cases hs : select a.params branches otherwise with
    | none => exact .ok hp
    | some body => exact ih body hs q hp
  case inclusion =>
    intro frame path span p ih q hp
    by_cases hd : frame.keys.length < b.limits.depth
    · rw [node_inclusion _ _ _ _ _ hd, node_inclusion _ _ _ _ _ (by rwa [h.limits_eq])]
      obtain ⟨hfst, hsnd⟩ := fetch_related h.resolver_eq h.limits_eq hp frame span path
      rcases hf : fetch a frame span path p with ⟨e | ⟨r, d⟩, p'⟩ <;>
        rcases hf' : fetch b frame span path q with ⟨e' | ⟨r', d'⟩, q'⟩ <;>
        rw [hf, hf'] at hfst hsnd <;> cases hfst
      · exact .fail hsnd e
      · exact ih r d p' (by rwa [h.limits_eq]) hf q' hsnd
    · rw [node_tooDeep _ _ _ _ _ (Nat.not_lt.1 hd),
        node_tooDeep _ _ _ _ _ (by rw [h.limits_eq]; exact Nat.not_lt.1 hd), h.limits_eq]
      exact .fail hp _

theorem document_inStep (hR : Congruent R) (h : a.Twin R b) (cache : Option Cache)
    (source : String) (d : Document) :
    InStep R b.limits.bytes (document a cache source d) (document b cache source d) :=
  (walk_inStep hR h).1 _ _ _ _ ⟨hR.refl _, rfl, rfl⟩

end

/-! ### Failures -/

/-- Any two texts go together. -/
theorem congruent_any : Congruent fun _ _ => True := ⟨fun _ => trivial, fun _ _ => trivial⟩

theorem Outcome.Overflows.result_eq {bytes : Nat} {o : Outcome} (h : o.Overflows bytes) :
    ∃ d : Diagnostic, o.result = .error d ∧ d.Reports (.tooLarge bytes) := by
  obtain ⟨failure, p⟩ := o
  obtain ⟨d, hf, hd⟩ := h
  obtain rfl : failure = some d := hf
  exact ⟨d, rfl, hd⟩

/-- Steps in step both succeed or fail alike, if neither has too large an output. -/
theorem InStep.result (h : InStep R bytes o o')
    (ho : ∀ d, o.result = .error d → ¬ d.Reports (.tooLarge bytes))
    (ho' : ∀ d, o'.result = .error d → ¬ d.Reports (.tooLarge bytes)) :
    (∃ s t, o.result = .ok s ∧ o'.result = .ok t) ∨
      ∃ d, o.result = .error d ∧ o'.result = .error d := by
  obtain ⟨hf, -⟩ | ⟨hlarge | hlarge, -⟩ := h
  · obtain ⟨failure, p⟩ := o
    obtain ⟨failure', q⟩ := o'
    obtain rfl : failure = failure' := hf
    cases failure with
    | none => exact .inl ⟨_, _, rfl, rfl⟩
    | some d => exact .inr ⟨d, rfl, rfl⟩
  · obtain ⟨d, hd, hr⟩ := hlarge.result_eq
    exact absurd hr (ho d hd)
  · obtain ⟨d, hd, hr⟩ := hlarge.result_eq
    exact absurd hr (ho' d hd)

variable {p q : Params} {mode : Mode} {resolver : Resolver} {limits : Limits}

theorem twin_any (h : ∀ name, p.truthy name = q.truthy name) :
    Job.Twin (fun _ _ => True) ⟨p, mode, resolver, limits⟩ ⟨q, mode, resolver, limits⟩ :=
  ⟨rfl, rfl, h, fun _ => trivial⟩

/-- **Which failure a render ends in does not depend on what is inserted.** If the same names are
truthy in two renders of one template, and in neither the output is too large, both give a text or
both fail in the same way, whatever the values look like. With or without caches, as long as these
answer right. -/
theorem failures_eq_of_truthy_eq (h : ∀ name, p.truthy name = q.truthy name)
    {cache cache' : Option Cache} {source : String}
    (hc : AnswersRight ⟨p, mode, resolver, limits⟩ cache source)
    (hc' : AnswersRight ⟨q, mode, resolver, limits⟩ cache' source)
    (hp : ∀ d, (template ⟨p, mode, resolver, limits⟩ cache source).1 = .error d →
      ¬ d.Reports (.tooLarge limits.bytes))
    (hq : ∀ d, (template ⟨q, mode, resolver, limits⟩ cache' source).1 = .error d →
      ¬ d.Reports (.tooLarge limits.bytes)) :
    (∃ s t, (template ⟨p, mode, resolver, limits⟩ cache source).1 = .ok s ∧
      (template ⟨q, mode, resolver, limits⟩ cache' source).1 = .ok t) ∨
      ∃ d, (template ⟨p, mode, resolver, limits⟩ cache source).1 = .error d ∧
        (template ⟨q, mode, resolver, limits⟩ cache' source).1 = .error d := by
  rw [hc.template_fst, template_none_fst] at hp ⊢
  rw [hc'.template_fst, template_none_fst] at hq ⊢
  cases hparse : Document.parse limits.nesting source with
  | error e => exact .inr ⟨_, rfl, rfl⟩
  | ok d =>
    rw [hparse] at hp hq
    exact (document_inStep congruent_any (twin_any h) none source d).result hp hq

/-- A value that is written like a directive, before an include that is refused. -/
theorem failures_eq_of_directive_in_value :
    let p : Params := ⟨[("a", .string "[% include 'x' %]")]⟩
    let q : Params := ⟨[("a", .string "y")]⟩
    let run (params : Params) : Except Diagnostic String :=
      (template ⟨params, .xml, .none, ⟨1, 1, 17, 0⟩⟩ none "[[ $a ]][% include 'k' %]").1
    (∀ name, p.truthy name = q.truthy name) ∧
      run p = .error ⟨.sandboxViolation, "includes are disabled: k", some ⟨8, 25⟩, some ⟨8, 1, 9⟩,
        none⟩ ∧
      ((∃ s t, run p = .ok s ∧ run q = .ok t) ∨ ∃ d, run p = .error d ∧ run q = .error d) := by
  intro p q run
  have h : ∀ name, p.truthy name = q.truthy name := by
    intro name
    by_cases hname : "a" = name
    · subst hname
      decide
    · simp [p, q, Params.truthy, Params.get?, Fields.get?, hname]
  have hparse : Document.parse 0 "[[ $a ]][% include 'k' %]" =
      .ok ⟨[.interpolation "a" ⟨0, 8⟩, .inclusion "k" ⟨8, 25⟩]⟩ := by cbv
  have hrun (params : Params) (hle : (params.text "a").utf8ByteSize ≤ 17) :
      run params = .error ⟨.sandboxViolation, "includes are disabled: k", some ⟨8, 25⟩,
        some ⟨8, 1, 9⟩, none⟩ := by
    dsimp only [run]
    rw [template_of_parse hparse, nodes_cons, node_interpolation,
      Mode.substitute_of_ne_html (m := .xml) (by decide), append_of_le _ (by simpa using hle),
      Outcome.ok_andThen, nodes_cons, node_inclusion _ _ _ _ _ (by exact Nat.zero_lt_one),
      fetch_refused _ (by exact Nat.zero_lt_one) rfl]
    rfl
  have hlarge : ∀ d, .error ⟨.sandboxViolation, "includes are disabled: k", some ⟨8, 25⟩,
      some ⟨8, 1, 9⟩, none⟩ = (.error d : Except Diagnostic String) →
      ¬ d.Reports (.tooLarge 17) := by
    rintro d ⟨⟩ ⟨hk, -⟩
    exact absurd hk (by decide)
  have hp := hrun p (by decide)
  have hq := hrun q (by decide)
  refine ⟨h, hp, failures_eq_of_truthy_eq h (answersRight_none _ _) (answersRight_none _ _)
    (fun d hd => ?_) fun d hd => ?_⟩
  · exact hlarge d (hp.symm.trans hd)
  · exact hlarge d (hq.symm.trans hd)

end Render

end Stencil
