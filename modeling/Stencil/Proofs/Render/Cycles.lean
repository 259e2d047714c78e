import Stencil.Proofs.Render.Failures

/-!
# Includes inside themselves

A render refuses an include whose key is open. The keys that are open where a walk stands are those
of the includes that it has entered and not left: for each of them there is an include in whose
document the walk stands (`Visits.mem_keys`). So a cycle is reported only where an include is come to
inside another one that has the same key (`exists_include_within`).
-/

namespace Stencil

/-! ### Messages -/

theorem take_toList_append {s t : String} {n : Nat} (h : n ≤ s.toList.length) :
    (s ++ t).toList.take n = s.toList.take n := by
  rw [String.toList_append, List.take_append_of_le_length h]

namespace LimitError

/-- The first characters of a message tell what it is about. -/
theorem take_message (e : LimitError) :
    e.message.toList.take 9 = match e with
      | tooDeep _ => "include d".toList
      | tooMany _ => "render ex".toList
      | tooLarge _ => "output ex".toList
      | cycle _ => "include c".toList := by
  cases e <;> unfold message
  case tooDeep => exact take_toList_append (by decide)
  case cycle => exact take_toList_append (by decide)
  all_goals
    dsimp only
    rw [String.append_assoc, take_toList_append (by decide)]
    decide

/-- What is said of a cycle is said of nothing else that a render may not do. -/
theorem message_eq_cycle {e : LimitError} {chain : List String}
    (h : e.message = (cycle chain).message) : ∃ chain', e = cycle chain' := by
  have hstart := congrArg (fun s : String => s.toList.take 9) h
  simp only [take_message] at hstart
  cases e with
  | cycle chain' => exact ⟨chain', rfl⟩
  | tooDeep n | tooMany n | tooLarge n =>
    dsimp only at hstart
    exact absurd hstart (by decide)

end LimitError

/-- A failure that reports a cycle reports nothing else. -/
theorem Diagnostic.Reports.eq_cycle {d : Diagnostic} {e : LimitError} {chain : List String}
    (h : d.Reports (.cycle chain)) (he : d.Reports e) : ∃ chain', e = .cycle chain' :=
  LimitError.message_eq_cycle (he.2.symm.trans h.2)

namespace Render

variable {job : Job}

/-! ### Open includes -/

/-- In the document of an include of `outer`, answered with `r`, a walk comes to a node. -/
def Within (job : Job) (comes : Visiting) (outer : String) (r : Resolved) : Visiting :=
  fun frame n q => ∃ above span p d p', comes above (.inclusion outer span) p ∧
    above.keys.length < job.limits.depth ∧ fetch job above span outer p = (.ok (r, d), p') ∧
    Visits job (above.enter r) d.nodes p' frame n q

theorem Within.mono {comes comes' : Visiting} {outer : String} {r : Resolved} {frame : Frame}
    {n : Node} {q : Progress} (h : Within job comes outer r frame n q)
    (hc : ∀ frame n p, comes frame n p → comes' frame n p) :
    Within job comes' outer r frame n q := by
  obtain ⟨above, span, p, d, p', hv, h⟩ := h
  exact ⟨above, span, p, d, p', hc _ _ _ hv, h⟩

mutual

/-- A key that is open inside a node was open before it, or is that of an include in whose document
the walk stands. -/
theorem VisitsNode.mem_keys {frame frame' : Frame} {n m : Node} {p q : Progress} {key : String}
    (h : VisitsNode job frame n p frame' m q) (hk : key ∈ frame'.keys) :
    key ∈ frame.keys ∨
      ∃ outer r, r.key = key ∧ Within job (VisitsNode job frame n p) outer r frame' m q :=
  match h with
  | .self => .inl hk
  | .body hs h => (Visits.mem_keys h hk).imp_right fun ⟨outer, r, hr, hw⟩ =>
      ⟨outer, r, hr, hw.mono fun _ _ _ hv => .body hs hv⟩
  | .inclusion (r := r) hd hf h => by
    obtain hold | ⟨outer, r', hr, hw⟩ := Visits.mem_keys h hk
    · obtain rfl | hold := List.mem_cons.1 hold
      · exact .inr ⟨_, r, rfl, _, _, _, _, _, .self, hd, hf, h⟩
      · exact .inl hold
    · exact .inr ⟨outer, r', hr, hw.mono fun _ _ _ hv => .inclusion hd hf hv⟩

/-- A key that is open among nodes was open before them, or is that of an include in whose document
the walk stands. -/
theorem Visits.mem_keys {frame frame' : Frame} {list : List Node} {m : Node} {p q : Progress}
    {key : String} (h : Visits job frame list p frame' m q) (hk : key ∈ frame'.keys) :
    key ∈ frame.keys ∨
      ∃ outer r, r.key = key ∧ Within job (Visits job frame list p) outer r frame' m q :=
  match h with
  | .head h => (VisitsNode.mem_keys h hk).imp_right fun ⟨outer, r, hr, hw⟩ =>
      ⟨outer, r, hr, hw.mono fun _ _ _ hv => .head hv⟩
  | .tail hn h => (Visits.mem_keys h hk).imp_right fun ⟨outer, r, hr, hw⟩ =>
      ⟨outer, r, hr, hw.mono fun _ _ _ hv => .tail hn hv⟩

end

/-! ### Where a cycle is reported -/

/-- A walk comes to an include whose key is open. -/
def Reenters (job : Job) (comes : Visiting) : Prop :=
  ∃ frame path span p r, comes frame (.inclusion path span) p ∧ job.resolver path = .ok r ∧
    r.key ∈ frame.keys

theorem Reenters.mono {comes comes' : Visiting} (h : Reenters job comes)
    (hc : ∀ frame n p, comes frame n p → comes' frame n p) : Reenters job comes' := by
  obtain ⟨frame, path, span, p, r, hv, h⟩ := h
  exact ⟨frame, path, span, p, r, hc _ _ _ hv, h⟩

variable {chain : List String} {d : Diagnostic}

theorem append_ne_cycle {frame : Frame} {span : Span} {text : String} {p : Progress}
    (hf : (append job frame span text p).failure = some d) : ¬ d.Reports (.cycle chain) := by
  intro hd
  by_cases h : job.limits.bytes < p.output.utf8ByteSize + text.utf8ByteSize
  · rw [append_of_lt span h] at hf
    cases hf
    obtain ⟨_, he⟩ := hd.eq_cycle (frame.reports_failure (.tooLarge _) span)
    cases he
  · rw [append_of_le span (Nat.not_lt.1 h)] at hf
    cases hf

/-- An include is refused as a cycle only if its key is open. -/
theorem mem_keys_of_fetch {frame : Frame} {path : String} {span : Span} {p q : Progress}
    (hf : fetch job frame span path p = (.error d, q)) (hd : d.Reports (.cycle chain)) :
    ∃ r, job.resolver path = .ok r ∧ r.key ∈ frame.keys := by
  by_cases hi : job.limits.includes ≤ p.includes
  · rw [fetch_tooMany span hi] at hf
    cases hf
    obtain ⟨_, he⟩ := hd.eq_cycle (frame.reports_failure (.tooMany _) span)
    cases he
  have hi : p.includes < job.limits.includes := Nat.not_le.1 hi
  cases hr : job.resolver path with
  | error e =>
    rw [fetch_refused span hi hr] at hf
    cases hf
    cases hd.1
  | ok r =>
    by_cases hk : r.key ∈ frame.keys
    · exact ⟨r, rfl, hk⟩
    · rw [fetch_found span hi hr hk, Prod.mk.injEq] at hf
      obtain ⟨hf, -⟩ := hf
      split at hf
      · cases hf
        cases hd.1
      · cases hf

/-- **A walk reports a cycle only at an include whose key is open.** -/
theorem walk_reenters (hd : d.Reports (.cycle chain)) :
    (∀ frame list p, (nodes job frame list p).failure = some d →
      Reenters job (Visits job frame list p)) ∧
    ∀ frame n p, (node job frame n p).failure = some d →
      Reenters job (VisitsNode job frame n p) := by
  refine @walk_induction job _ _ ?nil ?cons ?literal ?interpolation ?conditional ?inclusion
  case nil =>
    intro frame p hf
    rw [nodes_nil] at hf
    cases hf
  case cons =>
    intro frame n ns p ihn ihns hf
    rw [nodes_cons] at hf
    rcases ho : node job frame n p with ⟨_ | e, q⟩
    · rw [ho] at hf
      exact (ihns q hf).mono fun _ _ _ hv => .tail ho hv
    · rw [ho] at hf
      exact (ihn (by rw [ho]; exact hf)).mono fun _ _ _ hv => .head hv
  case literal =>
    intro frame text span p hf
    rw [node_literal] at hf
    exact absurd hd (append_ne_cycle hf)
  case interpolation =>
    intro frame name span p hf
    rw [node_interpolation] at hf
    exact absurd hd (append_ne_cycle hf)
  case conditional =>
    intro frame branches otherwise span p ih hf
    rw [node_conditional] at hf
    cases hs : select job.params branches otherwise with
    | none =>
      rw [hs] at hf
      cases hf
    | some body =>
      rw [hs] at hf
      exact (ih body hs hf).mono fun _ _ _ hv => .body hs hv
  case inclusion =>
    intro frame path span p ih hf
    by_cases hroom : frame.keys.length < job.limits.depth
    · rw [node_inclusion _ _ _ _ _ hroom] at hf
      rcases hq : fetch job frame span path p with ⟨e | ⟨r, doc⟩, q⟩
      · rw [hq] at hf
        cases hf
        obtain ⟨r, hr, hk⟩ := mem_keys_of_fetch hq hd
        exact ⟨frame, path, span, p, r, .self, hr, hk⟩
      · rw [hq] at hf
        exact (ih r doc q hroom hq hf).mono fun _ _ _ hv => .inclusion hroom hq hv
    · rw [node_tooDeep _ _ _ _ _ (Nat.not_lt.1 hroom)] at hf
      cases hf
      obtain ⟨_, he⟩ := hd.eq_cycle (frame.reports_failure (.tooDeep _) span)
      cases he

/-! ### Templates -/

/-- A render of `source` comes to an include of `path` while an include of `outer` is being
evaluated. -/
def IncludesWithin (job : Job) (cache : Option Cache) (source outer path : String) : Prop :=
  ∃ doc r frame span q, (Cache.lookUp cache job.limits.nesting source).1 = .ok doc ∧
    Within job (Visits job ⟨source, []⟩ doc.nodes
      ⟨"", 0, (Cache.lookUp cache job.limits.nesting source).2⟩) outer r frame
      (.inclusion path span) q

/-- **A cycle is reported only at an include inside another one that has the same key.** -/
theorem exists_include_within {cache : Option Cache} {source : String}
    (h : (template job cache source).1 = .error d) (hd : d.Reports (.cycle chain)) :
    ∃ outer path r r', IncludesWithin job cache source outer path ∧
      job.resolver outer = .ok r ∧ job.resolver path = .ok r' ∧ r.key = r'.key := by
  unfold template at h
  rcases hl : Cache.lookUp cache job.limits.nesting source with ⟨e | doc, cache'⟩
  · rw [hl] at h
    cases h
    cases hd.1
  · rw [hl] at h
    have hf : (nodes job ⟨source, []⟩ doc.nodes ⟨"", 0, cache'⟩).failure = some d := by
      simp only [Outcome.result, document] at h
      split at h
      · cases h
      · next hf =>
        cases h
        exact hf
    obtain ⟨frame, path, span, q, r', hv, hr', hk⟩ := (walk_reenters hd).1 _ _ _ hf
    obtain hopen | ⟨outer, r, hkey, hw⟩ := hv.mem_keys hk
    · cases hopen
    · have hr : job.resolver outer = .ok r := by
        obtain ⟨_, span, _, _, _, _, -, hfetch, -⟩ := hw
        exact ((fetch_eq_ok_iff span).1 hfetch).2.1
      refine ⟨outer, path, r, r', ⟨doc, r, frame, span, q, ?_, ?_⟩, hr, hr', hkey⟩
      · rw [hl]
      · rw [hl]
        exact hw

/-- An include inside another one that has the same key is refused as a cycle. -/
theorem template_of_include_within {source path path' : String} {span span' : Span}
    {r r' : Resolved} (hdepth : 1 < job.limits.depth) (hincludes : 1 < job.limits.includes)
    (hp : Document.parse job.limits.nesting source = .ok ⟨[.inclusion path span]⟩)
    (hr : job.resolver path = .ok r)
    (hin : Document.parse job.limits.nesting r.content = .ok ⟨[.inclusion path' span']⟩)
    (hr' : job.resolver path' = .ok r') (hkey : r'.key = r.key) :
    (template job none source).1 = .error (Frame.failure ⟨r.content, [r.key]⟩ .evaluationError
      (LimitError.cycle [r.key, r.key]).message span') := by
  rw [template_of_parse hp, nodes_cons, node_inclusion _ _ _ _ _ (by exact Nat.zero_lt_of_lt hdepth),
    fetch_found _ (by exact Nat.zero_lt_of_lt hincludes) hr List.not_mem_nil, Cache.lookUp_none, hin]
  dsimp only [Frame.enter]
  rw [nodes_cons, node_inclusion _ _ _ _ _ (by exact hdepth),
    fetch_open _ (by exact hincludes) hr' (by exact List.mem_singleton.2 hkey), hkey]
  rfl

end Render

end Stencil
