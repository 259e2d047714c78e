import Stencil.Proofs.Cache
import Stencil.Proofs.Render.Walk

/-!
# What a render looks up

A render parses its template and each include it comes to, through a cache if it has one. If the
cache answers right for all of them, the render goes the same way as without a cache, step by step
(`walk_uncached`), and leaves the cache in order.
-/

namespace Stencil

namespace Render

/-! ### The nodes that a walk comes to -/

section

variable (job : Job)

mutual

/-- The walk of a node comes to a node, in this frame and with this progress. -/
inductive VisitsNode : Frame → Node → Progress → Frame → Node → Progress → Prop where
  /-- It comes to the node itself. -/
  | self {frame : Frame} {n : Node} {p : Progress} : VisitsNode frame n p frame n p
  /-- It goes through the body that is taken. -/
  | body {frame : Frame} {branches : List Branch} {otherwise : Option (List Node)} {span : Span}
      {body : List Node}
      {p : Progress} {frame' : Frame} {n : Node} {q : Progress}
      (hs : select job.params branches otherwise = some body) (h : Visits frame body p frame' n q) :
      VisitsNode frame (.conditional branches otherwise span) p frame' n q
  /-- It goes through the include that is entered. -/
  | inclusion {frame : Frame} {path : String} {span : Span} {r : Resolved} {d : Document}
      {p p' : Progress}
      {frame' : Frame} {n : Node} {q : Progress} (hd : frame.keys.length < job.limits.depth)
      (hf : fetch job frame span path p = (.ok (r, d), p'))
      (h : Visits (frame.enter r) d.nodes p' frame' n q) :
      VisitsNode frame (.inclusion path span) p frame' n q

/-- The walk of nodes comes to a node, in this frame and with this progress. -/
inductive Visits : Frame → List Node → Progress → Frame → Node → Progress → Prop where
  /-- It comes to it in the first of the nodes. -/
  | head {frame : Frame} {n : Node} {ns : List Node} {p : Progress} {frame' : Frame} {m : Node}
      {q : Progress}
      (h : VisitsNode frame n p frame' m q) : Visits frame (n :: ns) p frame' m q
  /-- It comes to it after the first. -/
  | tail {frame : Frame} {n : Node} {ns : List Node} {p p' : Progress} {frame' : Frame} {m : Node}
      {q : Progress}
      (hn : node job frame n p = .ok p') (h : Visits frame ns p' frame' m q) :
      Visits frame (n :: ns) p frame' m q

end

/-- In this frame and with this progress an include of `path` is looked up, as `content`. -/
def Asks (frame : Frame) (path : String) (p : Progress) (content : String) : Prop :=
  frame.keys.length < job.limits.depth ∧ p.includes < job.limits.includes ∧
    ∃ r, job.resolver path = .ok r ∧ r.key ∉ frame.keys ∧ r.content = content

/-- The walk of nodes looks `content` up. -/
def LooksUp (frame : Frame) (list : List Node) (p : Progress) (content : String) : Prop :=
  ∃ frame' path span q, Visits job frame list p frame' (.inclusion path span) q ∧
    Asks job frame' path q content

/-- A render of `source` looks `content` up. -/
def TemplateLooksUp (cache : Option Cache) (source content : String) : Prop :=
  content = source ∨ ∃ d, (Cache.lookUp cache job.limits.nesting source).1 = .ok d ∧
    LooksUp job ⟨source, []⟩ d.nodes
      ⟨"", 0, (Cache.lookUp cache job.limits.nesting source).2⟩ content

end

/-! ### The same without a cache -/

/-- The same progress without a cache. -/
def Progress.uncached (p : Progress) : Progress := { p with cache := none }

/-- The same outcome without a cache. -/
def Outcome.uncached (o : Outcome) : Outcome := ⟨o.failure, o.progress.uncached⟩

variable {job : Job} {known : Nat → String → Prop}

/-- An outcome that is the same without a cache, and whose cache answers right for what is known. -/
def Alike (known : Nat → String → Prop) (o o' : Outcome) : Prop :=
  o' = o.uncached ∧ Cache.SoundIfAny known o.progress.cache

theorem append_alike {p : Progress} (hc : Cache.SoundIfAny known p.cache) (frame : Frame)
    (span : Span) (text : String) :
    Alike known (append job frame span text p) (append job frame span text p.uncached) := by
  by_cases h : job.limits.bytes < p.output.utf8ByteSize + text.utf8ByteSize
  · have h' : job.limits.bytes < p.uncached.output.utf8ByteSize + text.utf8ByteSize := h
    rw [append, append, if_pos h, if_pos h']
    exact ⟨rfl, hc⟩
  · have h' : ¬ job.limits.bytes < p.uncached.output.utf8ByteSize + text.utf8ByteSize := h
    rw [append, append, if_neg h, if_neg h']
    exact ⟨rfl, hc⟩

/-- An include is fetched alike without a cache if the cache answers right for it. -/
theorem fetch_uncached {frame : Frame} {path : String} {p : Progress} (span : Span)
    (hc : Cache.SoundIfAny known p.cache) (hd : frame.keys.length < job.limits.depth)
    (hk : ∀ content, Asks job frame path p content → known job.limits.nesting content) :
    fetch job frame span path p.uncached =
        ((fetch job frame span path p).1, (fetch job frame span path p).2.uncached) ∧
      Cache.SoundIfAny known (fetch job frame span path p).2.cache := by
  by_cases h : p.includes < job.limits.includes
  · have h' : p.uncached.includes < job.limits.includes := h
    cases hr : job.resolver path with
    | error e =>
      rw [fetch_refused span h hr, fetch_refused span h' hr]
      exact ⟨rfl, hc⟩
    | ok r =>
      by_cases hmem : r.key ∈ frame.keys
      · rw [fetch_open span h hr hmem, fetch_open span h' hr hmem]
        exact ⟨rfl, hc⟩
      · have hs := hk r.content ⟨hd, h, r, hr, hmem, rfl⟩
        rw [fetch_found span h hr hmem, fetch_found span h' hr hmem, hc.lookUp_fst hs]
        exact ⟨rfl, hc.lookUp_snd hs⟩
  · have h' : ¬ p.uncached.includes < job.limits.includes := h
    rw [fetch_tooMany span (by omega), fetch_tooMany span (by omega)]
    exact ⟨rfl, hc⟩

theorem Alike.andThen {o o' : Outcome} {next next' : Progress → Outcome} (h : Alike known o o')
    (hn : ∀ p, o = .ok p → Alike known (next p) (next' p.uncached)) :
    Alike known (o.andThen next) (o'.andThen next') := by
  obtain ⟨rfl, hc⟩ := h
  obtain ⟨failure, p⟩ := o
  cases failure with
  | none => exact hn p rfl
  | some d => exact ⟨rfl, hc⟩

/-- **A walk goes the same way without a cache**, if the cache answers right for all that is
looked up. -/
theorem walk_uncached :
    (∀ frame list p, Cache.SoundIfAny known p.cache →
      (∀ content, LooksUp job frame list p content → known job.limits.nesting content) →
      Alike known (nodes job frame list p) (nodes job frame list p.uncached)) ∧
    ∀ frame n p, Cache.SoundIfAny known p.cache →
      (∀ frame' path span q content, VisitsNode job frame n p frame' (.inclusion path span) q →
        Asks job frame' path q content → known job.limits.nesting content) →
      Alike known (node job frame n p) (node job frame n p.uncached) := by
  refine @walk_induction job _ _ ?nil ?cons ?literal ?interpolation ?conditional ?inclusion
  case nil =>
    intro frame p hc _
    rw [nodes_nil, nodes_nil]
    exact ⟨rfl, hc⟩
  case cons =>
    intro frame n ns p ihn ihns hc hk
    rw [nodes_cons, nodes_cons]
    have hnode := ihn hc fun frame' path span q content hv ha =>
      hk content ⟨frame', path, span, q, .head hv, ha⟩
    refine hnode.andThen fun p' hp' => ?_
    refine ihns p' ?_ fun content hl => ?_
    · have := hnode.2
      rwa [hp'] at this
    · obtain ⟨frame', path, span, q, hv, ha⟩ := hl
      exact hk content ⟨frame', path, span, q, .tail hp' hv, ha⟩
  case literal =>
    intro frame text span p hc _
    rw [node_literal, node_literal]
    exact append_alike hc frame span text
  case interpolation =>
    intro frame name span p hc _
    rw [node_interpolation, node_interpolation]
    exact append_alike hc frame span _
  case conditional =>
    intro frame branches otherwise span p ih hc hk
    rw [node_conditional, node_conditional]
    cases hs : select job.params branches otherwise with
    | none => exact ⟨rfl, hc⟩
    | some body =>
      exact ih body hs hc fun content ⟨frame', path, span', q, hv, ha⟩ =>
        hk frame' path span' q content (.body hs hv) ha
  case inclusion =>
    intro frame path span p ih hc hk
    by_cases hd : frame.keys.length < job.limits.depth
    · rw [node_inclusion _ _ _ _ _ hd, node_inclusion _ _ _ _ _ hd]
      obtain ⟨heq, hcache⟩ := fetch_uncached span hc hd fun content ha =>
        hk frame path span p content .self ha
      rw [heq]
      rcases hf : fetch job frame span path p with ⟨e | ⟨r, d⟩, q⟩
      · rw [hf] at hcache
        exact ⟨rfl, hcache⟩
      · rw [hf] at hcache
        exact ih r d q hd hf hcache fun content ⟨frame', path', span', q', hv, ha⟩ =>
          hk frame' path' span' q' content (.inclusion hd hf hv) ha
    · rw [node_tooDeep _ _ _ _ _ (by omega), node_tooDeep _ _ _ _ _ (by omega)]
      exact ⟨rfl, hc⟩

/-- A template that is found is what parsing gives, and it is walked the same way without a cache. -/
theorem document_uncached {cache cache' : Option Cache} {source : String} {d : Document}
    (hc : Cache.SoundIfAny known cache)
    (hk : ∀ content, TemplateLooksUp job cache source content → known job.limits.nesting content)
    (hl : Cache.lookUp cache job.limits.nesting source = (.ok d, cache')) :
    Document.parse job.limits.nesting source = .ok d ∧
      Alike known (document job cache' source d) (document job none source d) := by
  have hs := hk source (.inl rfl)
  have hfst := hc.lookUp_fst hs
  have hsnd := hc.lookUp_snd hs
  rw [hl] at hfst hsnd
  refine ⟨hfst.symm, walk_uncached.1 ⟨source, []⟩ d.nodes ⟨"", 0, cache'⟩ hsnd fun content hcontent =>
    hk content (.inr ⟨d, ?_, ?_⟩)⟩
  · rw [hl]
  · rw [hl]
    exact hcontent

/-- **A render answers the same without a cache**, if the cache answers right for all that is
looked up. -/
theorem template_uncached {cache : Option Cache} {source : String}
    (hc : Cache.SoundIfAny known cache)
    (hk : ∀ content, TemplateLooksUp job cache source content → known job.limits.nesting content) :
    (template job none source).1 = (template job cache source).1 ∧
      Cache.SoundIfAny known (template job cache source).2 := by
  have hs := hk source (.inl rfl)
  have hfst := hc.lookUp_fst hs
  have hsnd := hc.lookUp_snd hs
  unfold template
  rcases hl : Cache.lookUp cache job.limits.nesting source with ⟨e | d, cache'⟩
  · rw [hl] at hfst hsnd
    rw [Cache.lookUp_none, ← hfst]
    exact ⟨rfl, hsnd⟩
  · obtain ⟨hparse, hdoc, hcache⟩ := document_uncached hc hk hl
    rw [Cache.lookUp_none, hparse]
    simp only [hdoc]
    exact ⟨rfl, hcache⟩

/-- The cache answers right for all that a render of `source` looks up. -/
def AnswersRight (job : Job) (cache : Option Cache) (source : String) : Prop :=
  ∃ known : Nat → String → Prop, Cache.SoundIfAny known cache ∧
    ∀ content, TemplateLooksUp job cache source content → known job.limits.nesting content

/-- Without a cache nothing is answered wrong. -/
theorem answersRight_none (job : Job) (source : String) : AnswersRight job none source :=
  ⟨fun _ _ => True, nofun, fun _ _ => trivial⟩

/-- A cache with nothing in it that keeps every text apart answers right, if limits fit into 64
bits. -/
theorem answersRight_empty (job : Job) (h : job.limits.nesting < UInt64.size) (capacity : Nat)
    (source : String) : AnswersRight job (some (.empty capacity)) source := by
  refine ⟨fun limit _ => limit < UInt64.size, fun c hc => ?_, fun _ _ => h⟩
  cases hc
  exact Cache.sound_withDigest capacity fun _ _ _ _ hl hl' => Cache.keyBytes_inj hl hl'

theorem AnswersRight.template_fst {cache : Option Cache} {source : String}
    (h : AnswersRight job cache source) :
    (template job cache source).1 = (template job none source).1 := by
  obtain ⟨known, hc, hk⟩ := h
  exact (template_uncached hc hk).1.symm

/-- Evaluating a node without a cache leaves none. -/
theorem cache_node_eq_none (job : Job) (frame : Frame) (n : Node) {p : Progress}
    (h : p.cache = none) :
    (node job frame n p).progress.cache = none := by
  obtain ⟨output, includes, cache⟩ := p
  obtain rfl : cache = none := h
  have hwalk := (@walk_uncached job fun _ _ => True).2 frame n ⟨output, includes, none⟩ nofun
    fun _ _ _ _ _ _ _ => trivial
  exact congrArg (fun o : Outcome => o.progress.cache) hwalk.1

/-- A render without a cache leaves none. -/
theorem template_none_snd (job : Job) (source : String) : (template job none source).2 = none := by
  rw [template, Cache.lookUp_none]
  cases Document.parse job.limits.nesting source with
  | error e => rfl
  | ok d =>
    have hwalk := (@walk_uncached job fun _ _ => True).1 ⟨source, []⟩ d.nodes ⟨"", 0, none⟩
      (by rintro c ⟨⟩)
      fun _ _ => trivial
    exact congrArg (fun o : Outcome => o.progress.cache) hwalk.1

end Render

end Stencil
