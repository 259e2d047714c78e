import Mathlib
import Stencil.Proofs.Document.Occurrence
import Stencil.Proofs.Render.LookUps

/-!
# Where a render fails

A failure names a template: that of the render itself, or an include by its key. The template, the
span and the line and column are kept apart all the way out of any number of includes and blocks,
and still go together in the end: the failure is the parse error of just this template, or has the
span of a node that occurs in just this template, and a node of the right kind for what went wrong
(`failure_pointsInto`).
-/

namespace Stencil

/-- The key of an include tells its content. -/
def Resolver.Keyed (resolver : Resolver) : Prop :=
  ∀ path path' r r', resolver path = .ok r → resolver path' = .ok r' → r.key = r'.key →
    r.content = r'.content

/-- The failure is one that a node of this kind can raise. -/
inductive Diagnostic.Blames (d : Diagnostic) (job : Render.Job) : Node → Prop where
  /-- There is no room for a literal text. -/
  | literal {text : String} {span : Span} (h : d.Reports (.tooLarge job.limits.bytes)) :
      Blames d job (.literal text span)
  /-- There is no room for a value. -/
  | interpolation {name : String} {span : Span} (h : d.Reports (.tooLarge job.limits.bytes)) :
      Blames d job (.interpolation name span)
  /-- An include is too deep in others. -/
  | tooDeep {path : String} {span : Span} (h : d.Reports (.tooDeep job.limits.depth)) :
      Blames d job (.inclusion path span)
  /-- There was an include too many. -/
  | tooMany {path : String} {span : Span} (h : d.Reports (.tooMany job.limits.includes)) :
      Blames d job (.inclusion path span)
  /-- An include is open already. -/
  | cycle {path : String} {span : Span} (chain : List String) (h : d.Reports (.cycle chain)) :
      Blames d job (.inclusion path span)
  /-- An include is refused. -/
  | refused {path : String} {span : Span} (e : IncludeError) (hr : job.resolver path = .error e)
      (hk : d.kind = .sandboxViolation) (hm : d.message = e.message) :
      Blames d job (.inclusion path span)

/-- The failure is explained by the text `source` of a template. -/
inductive Diagnostic.ExplainedBy (d : Diagnostic) (job : Render.Job) (source : String) : Prop where
  /-- It is the parse error of the text. -/
  | unparsed (e : ParseError) (hp : Document.parse job.limits.nesting source = .error e)
      (hd : d = ((Diagnostic.ofParseError e).locate source).withOrigin d.origin)
  /-- It was raised at a node of the document. -/
  | raised (doc : Document) (n : Node) (hp : Document.parse job.limits.nesting source = .ok doc)
      (hn : n.OccursIn doc.nodes) (hs : d.span = some n.span) (hb : d.Blames job n)

/-- The failure has a span of `source`, the position of this span in it, and is explained by it. -/
structure Diagnostic.PointsInto (d : Diagnostic) (job : Render.Job) (source : String) : Prop where
  /-- The position is that of the span. -/
  located : ∃ span, d.span = some span ∧ d.position = some (Position.locate source span.start)
  /-- The text explains it. -/
  explained : d.ExplainedBy job source

theorem Diagnostic.pointsInto_of_parse {job : Render.Job} {source : String} {e : ParseError}
    (h : Document.parse job.limits.nesting source = .error e) (origin : Option String) :
    (((Diagnostic.ofParseError e).locate source).withOrigin origin).PointsInto job source :=
  ⟨⟨e.span, rfl, rfl⟩, .unparsed e h rfl⟩

namespace Render

/-- The failure was raised at a node of the template that is being walked. -/
structure RaisedAt (job : Job) (frame : Frame) (n : Node) (d : Diagnostic) : Prop where
  /-- It names the template. -/
  origin_eq : d.origin = frame.origin
  /-- It has the span of the node. -/
  span_eq : d.span = some n.span
  /-- Its position is that of the span. -/
  position_eq : d.position = some (Position.locate frame.source n.span.start)
  /-- The node is one that can raise it. -/
  blames : d.Blames job n

theorem raisedAt_failure {job : Job} {frame : Frame} {n : Node} {kind : DiagnosticKind}
    {message : String} (h : (frame.failure kind message n.span).Blames job n) :
    RaisedAt job frame n (frame.failure kind message n.span) :=
  ⟨rfl, rfl, rfl, h⟩

theorem RaisedAt.pointsInto {job : Job} {frame : Frame} {n : Node} {d : Diagnostic} {doc : Document}
    (h : RaisedAt job frame n d) (hp : Document.parse job.limits.nesting frame.source = .ok doc)
    (hn : n.OccursIn doc.nodes) : d.PointsInto job frame.source :=
  ⟨⟨n.span, h.span_eq, h.position_eq⟩, .raised doc n hp hn h.span_eq h.blames⟩

/-- Where a walk comes to: the frame, the node and the progress. -/
abbrev Visiting := Frame → Node → Progress → Prop

/-- The resolver answers `r` for an include that a walk comes to. -/
def Answers (job : Job) (comes : Visiting) (r : Resolved) : Prop :=
  ∃ frame path span p, comes frame (.inclusion path span) p ∧
    frame.keys.length < job.limits.depth ∧ p.includes < job.limits.includes ∧
    job.resolver path = .ok r

theorem Answers.mono {job : Job} {comes comes' : Visiting} {r : Resolved}
    (h : Answers job comes r) (hc : ∀ frame n p, comes frame n p → comes' frame n p) :
    Answers job comes' r := by
  obtain ⟨frame, path, span, p, hv, hr⟩ := h
  exact ⟨frame, path, span, p, hc _ _ _ hv, hr⟩

/-- Where nodes of a template are walked, the failure was raised at one of them, or it names an
include that was come to and points into its content. -/
def FailsIn (job : Job) (frame : Frame) (ns : List Node) (comes : Visiting) (d : Diagnostic) :
    Prop :=
  (∃ n, n.OccursIn ns ∧ RaisedAt job frame n d) ∨
    ∃ r, Answers job comes r ∧ d.origin = some r.key ∧ d.PointsInto job r.content

variable {job : Job} {known : Nat → String → Prop}

theorem FailsIn.mono {frame : Frame} {ns ns' : List Node} {comes comes' : Visiting}
    {d : Diagnostic} (h : FailsIn job frame ns comes d)
    (hn : ∀ n : Node, n.OccursIn ns → n.OccursIn ns')
    (hc : ∀ frame n p, comes frame n p → comes' frame n p) :
    FailsIn job frame ns' comes' d := by
  obtain ⟨n, ho, hr⟩ | ⟨r, ha, hd⟩ := h
  · exact .inl ⟨n, hn n ho, hr⟩
  · exact .inr ⟨r, ha.mono hc, hd⟩

theorem failsIn_node {frame : Frame} {n : Node} {comes : Visiting} {kind : DiagnosticKind}
    {message : String} (h : (frame.failure kind message n.span).Blames job n) :
    FailsIn job frame [n] comes (frame.failure kind message n.span) :=
  .inl ⟨n, .here List.mem_cons_self, raisedAt_failure h⟩

/-- What fails inside an include that is entered points into its content. -/
theorem FailsIn.entered {frame : Frame} {r : Resolved} {doc : Document} {n : Node}
    {comes comes' : Visiting} {d : Diagnostic}
    (h : FailsIn job (frame.enter r) doc.nodes comes d)
    (hp : Document.parse job.limits.nesting r.content = .ok doc) (ha : Answers job comes' r)
    (hc : ∀ frame n p, comes frame n p → comes' frame n p) : FailsIn job frame [n] comes' d := by
  obtain ⟨m, ho, hr⟩ | ⟨r', ha', hd⟩ := h
  · exact .inr ⟨r, ha, hr.origin_eq, hr.pointsInto hp ho⟩
  · exact .inr ⟨r', ha'.mono hc, hd⟩

/-- The body that is taken is one of the conditional. -/
theorem occursIn_of_select {params : Params} {branches : List Branch}
    {otherwise : Option (List Node)} {body : List Node}
    (h : select params branches otherwise = some body) (span : Span) {n : Node}
    (hn : n.OccursIn body) : n.OccursIn [.conditional branches otherwise span] := by
  have hmem : (∃ b ∈ branches, b.body = body) ∨ otherwise = some body := by
    clear hn
    induction branches with
    | nil => exact .inr h
    | cons b bs ih =>
      rw [select] at h
      by_cases ht : b.condition.test params
      · rw [if_pos ht] at h
        exact .inl ⟨b, List.mem_cons_self, Option.some.inj h⟩
      · rw [if_neg ht] at h
        obtain ⟨b', hb, he⟩ | ho := ih h
        · exact .inl ⟨b', List.mem_cons_of_mem b hb, he⟩
        · exact .inr ho
  obtain ⟨b, hb, rfl⟩ | rfl := hmem
  · exact .branch List.mem_cons_self hb hn
  · exact .last List.mem_cons_self hn

theorem append_failsIn {frame : Frame} {n : Node} {text : String} {p : Progress} {d : Diagnostic}
    {comes : Visiting} (hf : (append job frame n.span text p).failure = some d)
    (hb : ∀ d : Diagnostic, d.Reports (.tooLarge job.limits.bytes) → d.Blames job n) :
    FailsIn job frame [n] comes d := by
  by_cases h : job.limits.bytes < p.output.utf8ByteSize + text.utf8ByteSize
  · rw [append_of_lt n.span h] at hf
    cases hf
    exact failsIn_node (hb _ (frame.reports_failure _ n.span))
  · rw [append_of_le n.span (Nat.not_lt.1 h)] at hf
    cases hf

/-- An include that cannot be fetched is to blame, or its content does not parse. -/
theorem fetch_failsIn {frame : Frame} {path : String} {span : Span} {p q : Progress}
    {d : Diagnostic} (hd : frame.keys.length < job.limits.depth)
    (hf : fetch job frame span path p = (.error d, q))
    (hc : ∀ r : Resolved, Asks job frame path p r.content →
      (Cache.lookUp p.cache job.limits.nesting r.content).1 =
        Document.parse job.limits.nesting r.content) :
    FailsIn job frame [.inclusion path span] (VisitsNode job frame (.inclusion path span) p) d := by
  by_cases hi : job.limits.includes ≤ p.includes
  · rw [fetch_tooMany span hi] at hf
    cases hf
    exact failsIn_node (n := .inclusion path span) (.tooMany (frame.reports_failure _ span))
  have hi : p.includes < job.limits.includes := Nat.not_le.1 hi
  cases hr : job.resolver path with
  | error e =>
    rw [fetch_refused span hi hr] at hf
    cases hf
    exact failsIn_node (n := .inclusion path span) (.refused e hr rfl rfl)
  | ok r =>
    by_cases hk : r.key ∈ frame.keys
    · rw [fetch_open span hi hr hk] at hf
      cases hf
      exact failsIn_node (n := .inclusion path span) (.cycle _ (frame.reports_failure _ span))
    · rw [fetch_found span hi hr hk, hc r ⟨hd, hi, r, hr, hk, rfl⟩, Prod.mk.injEq] at hf
      obtain ⟨hf, -⟩ := hf
      split at hf
      · next e he =>
        cases hf
        exact .inr ⟨r, ⟨frame, path, span, p, .self, hd, hi, hr⟩, rfl,
          Diagnostic.pointsInto_of_parse he _⟩
      · cases hf

/-- **A walk fails at a node of the template, or inside an include that it names**, if the cache
answers right for all that is looked up. -/
theorem walk_failsIn :
    (∀ frame list p, Cache.SoundIfAny known p.cache →
      (∀ content, LooksUp job frame list p content → known job.limits.nesting content) →
      ∀ d, (nodes job frame list p).failure = some d →
        FailsIn job frame list (Visits job frame list p) d) ∧
    ∀ frame n p, Cache.SoundIfAny known p.cache →
      (∀ frame' path span q content, VisitsNode job frame n p frame' (.inclusion path span) q →
        Asks job frame' path q content → known job.limits.nesting content) →
      ∀ d, (node job frame n p).failure = some d →
        FailsIn job frame [n] (VisitsNode job frame n p) d := by
  refine @walk_induction job _ _ ?nil ?cons ?literal ?interpolation ?conditional ?inclusion
  case nil =>
    intro frame p _ _ d hf
    rw [nodes_nil] at hf
    cases hf
  case cons =>
    intro frame n ns p ihn ihns hc hk d hf
    have hkn : ∀ frame' path span q content,
        VisitsNode job frame n p frame' (.inclusion path span) q →
        Asks job frame' path q content → known job.limits.nesting content :=
      fun frame' path span q content hv ha => hk content ⟨frame', path, span, q, .head hv, ha⟩
    have hsound := (walk_uncached.2 frame n p hc hkn).2
    rw [nodes_cons] at hf
    rcases ho : node job frame n p with ⟨_ | e, q⟩
    · rw [ho] at hf hsound
      have hq := ihns q hsound (fun content ⟨frame', path, span, q', hv, ha⟩ =>
        hk content ⟨frame', path, span, q', .tail ho hv, ha⟩) d hf
      exact hq.mono (fun m hm => hm.mono (List.subset_cons_self n ns)) fun _ _ _ hv => .tail ho hv
    · rw [ho] at hf
      have hn := ihn hc hkn d (by rw [ho]; exact hf)
      exact hn.mono (fun m hm => hm.mono (by simp)) fun _ _ _ hv => .head hv
  case literal =>
    intro frame text span p _ _ d hf
    rw [node_literal] at hf
    exact append_failsIn (n := .literal text span) hf fun _ => .literal
  case interpolation =>
    intro frame name span p _ _ d hf
    rw [node_interpolation] at hf
    exact append_failsIn (n := .interpolation name span) hf fun _ => .interpolation
  case conditional =>
    intro frame branches otherwise span p ih hc hk d hf
    rw [node_conditional] at hf
    cases hs : select job.params branches otherwise with
    | none =>
      rw [hs] at hf
      cases hf
    | some body =>
      rw [hs] at hf
      have hb := ih body hs hc (fun content ⟨frame', path, span', q, hv, ha⟩ =>
        hk frame' path span' q content (.body hs hv) ha) d hf
      exact hb.mono (fun m hm => occursIn_of_select hs span hm) fun _ _ _ hv => .body hs hv
  case inclusion =>
    intro frame path span p ih hc hk d hf
    by_cases hd : frame.keys.length < job.limits.depth
    · have hparse : ∀ r : Resolved, Asks job frame path p r.content →
          (Cache.lookUp p.cache job.limits.nesting r.content).1 =
            Document.parse job.limits.nesting r.content :=
        fun r ha => hc.lookUp_fst (hk frame path span p r.content .self ha)
      rw [node_inclusion _ _ _ _ _ hd] at hf
      rcases hq : fetch job frame span path p with ⟨e | ⟨r, doc⟩, q⟩
      · rw [hq] at hf
        cases hf
        exact fetch_failsIn hd hq hparse
      · rw [hq] at hf
        obtain ⟨hi, hr, hkey, hdoc, hcache⟩ := (fetch_eq_ok_iff span).1 hq
        have hasks : Asks job frame path p r.content := ⟨hd, hi, r, hr, hkey, rfl⟩
        have hsound : Cache.SoundIfAny known q.cache := by
          rw [hcache]
          exact hc.lookUp_snd (hk frame path span p r.content .self hasks)
        have hin := ih r doc q hd hq hsound (fun content ⟨frame', path', span', q', hv, ha⟩ =>
          hk frame' path' span' q' content (.inclusion hd hq hv) ha) d hf
        exact hin.entered ((hparse r hasks).symm.trans hdoc)
          ⟨frame, path, span, p, .self, hd, hi, hr⟩ fun _ _ _ hv => .inclusion hd hq hv
    · rw [node_tooDeep _ _ _ _ _ (Nat.not_lt.1 hd)] at hf
      cases hf
      exact failsIn_node (n := .inclusion path span) (.tooDeep (frame.reports_failure _ span))

/-! ### Templates -/

/-- In a render of `source` the resolver answers `r`. -/
def TemplateAnswers (job : Job) (cache : Option Cache) (source : String) (r : Resolved) : Prop :=
  ∃ d, (Cache.lookUp cache job.limits.nesting source).1 = .ok d ∧
    Answers job (Visits job ⟨source, []⟩ d.nodes
      ⟨"", 0, (Cache.lookUp cache job.limits.nesting source).2⟩) r

/-- What the name of a template means in a render of `source`: without a name it is `source`, and
with one the content that the resolver gave for it. -/
def Names (job : Job) (cache : Option Cache) (source : String) :
    (name : Option String) → (content : String) → Prop
  | none, content => content = source
  | some key, content => TemplateAnswers job cache source ⟨key, content⟩

theorem exists_names {cache : Option Cache} {source : String} (hc : AnswersRight job cache source)
    {d : Diagnostic} (h : (template job cache source).1 = .error d) :
    ∃ content, Names job cache source d.origin content ∧ d.PointsInto job content := by
  obtain ⟨known, hc, hk⟩ := hc
  have hs := hk source (.inl rfl)
  have hfst := hc.lookUp_fst hs
  have hsnd := hc.lookUp_snd hs
  rcases hl : Cache.lookUp cache job.limits.nesting source with ⟨e | doc, cache'⟩
  · rw [hl] at hfst
    simp only [template, hl, Except.error.injEq] at h
    subst h
    exact ⟨source, rfl, Diagnostic.pointsInto_of_parse hfst.symm none⟩
  · rw [hl] at hfst hsnd
    have hf : (nodes job ⟨source, []⟩ doc.nodes ⟨"", 0, cache'⟩).failure = some d := by
      simp only [template, hl, Outcome.result, document] at h
      split at h
      · cases h
      · next hd =>
        cases h
        exact hd
    have hin := walk_failsIn.1 ⟨source, []⟩ doc.nodes ⟨"", 0, cache'⟩ hsnd
      (fun content hcontent => hk content (.inr ⟨doc, by rw [hl], by rw [hl]; exact hcontent⟩)) d hf
    obtain ⟨n, hn, hr⟩ | ⟨r, ha, ho, hp⟩ := hin
    · exact ⟨source, by rw [hr.origin_eq]; rfl, hr.pointsInto hfst.symm hn⟩
    · refine ⟨r.content, ?_, hp⟩
      rw [ho]
      exact ⟨doc, by rw [hl], by rw [hl]; exact ha⟩

/-- **A failure points into the template that it names.** It names the template of the render, or an
include by its key, and then there is one content that the resolver gave for this key. It has a
span, and the line and column of this span in just this text. Either it is the parse error of this
text, or it has the span of a node that occurs in it: of an include, if includes were too deep, too
many, formed a cycle or were refused, and of a literal text or an interpolation, if the output was
too large. -/
theorem failure_pointsInto {cache : Option Cache} {source : String} (hkey : job.resolver.Keyed)
    (hc : AnswersRight job cache source) {d : Diagnostic}
    (h : (template job cache source).1 = .error d) :
    ∃ content, (∀ other, Names job cache source d.origin other ↔ other = content) ∧
      d.PointsInto job content := by
  obtain ⟨content, hn, hp⟩ := exists_names hc h
  refine ⟨content, fun other => ⟨fun ho => ?_, fun ho => ho ▸ hn⟩, hp⟩
  cases hname : d.origin with
  | none =>
    rw [hname] at hn ho
    exact ho.trans hn.symm
  | some key =>
    rw [hname] at hn ho
    obtain ⟨_, -, _, path, _, _, -, -, -, hr⟩ := hn
    obtain ⟨_, -, _, path', _, _, -, -, -, hr'⟩ := ho
    exact hkey path' path _ _ hr' hr rfl

/-- A refused include two includes deep, after a letter of two bytes. -/
theorem failure_pointsInto_of_inner_include :
    let inner : Resolved := ⟨"k", "é[% include 'x' %]"⟩
    let resolver : Resolver := fun path =>
      if path = "k" then .ok inner else .error ⟨.notFound, path⟩
    let job : Job := ⟨.empty, .xml, resolver, ⟨2, 2, 9, 0⟩⟩
    let source := "a[% include 'k' %]"
    let d : Diagnostic := ⟨.sandboxViolation, "include not found: x", some ⟨2, 19⟩,
      some ⟨2, 1, 2⟩, some "k"⟩
    resolver.Keyed ∧ (template job (some (.empty 2)) source).1 = .error d ∧
      ∃ content, (∀ other, Names job (some (.empty 2)) source d.origin other ↔ other = content) ∧
        d.PointsInto job content := by
  intro inner resolver job source d
  have hinner : ∀ path r, resolver path = .ok r → r = inner := by
    intro path r h
    by_cases hpath : path = "k"
    · simpa [resolver, hpath] using h.symm
    · simp [resolver, hpath] at h
  have hkey : resolver.Keyed := by
    intro path path' r r' hr hr' _
    rw [hinner path r hr, hinner path' r' hr']
  have hparse : Document.parse 0 source = .ok ⟨[.literal "a" ⟨0, 1⟩, .inclusion "k" ⟨1, 18⟩]⟩ := by
    cbv
  have hinside : Document.parse 0 inner.content =
      .ok ⟨[.literal "é" ⟨0, 2⟩, .inclusion "x" ⟨2, 19⟩]⟩ := by cbv
  have hraised : Frame.failure ⟨inner.content, ["k"]⟩ .sandboxViolation
      (IncludeError.message ⟨.notFound, "x"⟩) ⟨2, 19⟩ = d := by decide
  have hc := answersRight_empty job (by decide) 2 source
  have h : (template job (some (.empty 2)) source).1 = .error d := by
    rw [hc.template_fst, template_of_parse hparse, nodes_cons, node_literal,
      append_of_le _ (by exact Nat.le_of_ble_eq_true rfl), Outcome.ok_andThen, nodes_cons,
      node_inclusion _ _ _ _ _ (by exact Nat.zero_lt_two),
      fetch_found (r := inner) _ (by exact Nat.zero_lt_two) rfl List.not_mem_nil,
      Cache.lookUp_none, hinside]
    dsimp only
    rw [nodes_cons, node_literal,
      append_of_le _ (by exact Nat.le_of_ble_eq_true rfl), Outcome.ok_andThen, nodes_cons,
      node_inclusion _ _ _ _ _ (by exact Nat.one_lt_two),
      fetch_refused (e := ⟨.notFound, "x"⟩) _ (by exact Nat.one_lt_two) rfl]
    exact congrArg Except.error hraised
  exact ⟨hkey, h, failure_pointsInto hkey hc h⟩

end Render

end Stencil
