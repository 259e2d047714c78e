import Mathlib
import Stencil.Engine
import Stencil.Proofs.Render.LookUps

/-!
# Engines that share a cache

Several engines may parse through one cache, each with its own limits and its own includes. What
they look up in the course of time is told apart by digests. If no two of these are the same by
accident, every render answers what it would answer without a cache (`results_eq`), whatever was
rendered before it and whenever the cache was cleared.
-/

namespace Stencil

/-! ### One render -/

namespace Engine

variable {e : Engine} {files : FileTree} {cache : Option Cache} {template : String}
  {params : Params} {mode : Mode}

/-- The cache of an engine answers right for all that a render looks up. -/
abbrev CacheFits (e : Engine) (files : FileTree) (cache : Option Cache) (template : String)
    (params : Params) (mode : Mode) : Prop :=
  Render.AnswersRight ⟨params, mode, e.source.resolver files, e.config.limits⟩ cache template

theorem cacheFits_none : e.CacheFits files none template params mode :=
  Render.answersRight_none _ template

theorem CacheFits.render_fst (h : e.CacheFits files cache template params mode) :
    (e.render files cache template params mode).1 =
      (e.render files none template params mode).1 :=
  Render.AnswersRight.template_fst h

/-- The cache that an engine starts with answers right: in one render every template is looked up
under the same limit. -/
theorem cacheFits_newCache (template : String) (params : Params) (mode : Mode) :
    e.CacheFits files e.newCache template params mode := by
  unfold newCache
  split
  · exact cacheFits_none
  · refine ⟨fun limit _ => limit = e.config.limits.nesting, fun c hc => ?_, fun _ _ => rfl⟩
    cases hc
    refine Cache.sound_withDigest _ ?_
    rintro _ source _ source' rfl rfl h
    refine ⟨rfl, ?_⟩
    rw [← String.toByteArray_inj]
    exact ByteArray.ext (Array.toList_inj.1 (List.append_cancel_left h))

/-- A request with a template is rendered. -/
theorem renderRequest_of_template {r : RenderRequest} (h : r.template = some template) :
    e.renderRequest files cache r =
      e.render files cache template (r.params.getD .empty) (Mode.ofName? r.mode) := by
  rw [renderRequest, RenderRequest.requireTemplate, h]

/-- A request without one is not. -/
theorem renderRequest_of_missing {r : RenderRequest} (h : r.template = none) :
    e.renderRequest files cache r = (.error RequestError.missingTemplate.diagnostic, cache) := by
  rw [renderRequest, RenderRequest.requireTemplate, h]

end Engine

/-! ### Histories -/

/-- What may happen to a shared cache. -/
inductive Event where
  /-- An engine renders a template, with the files as they are. -/
  | render (engine : Engine) (files : FileTree) (template : String) (params : Params) (mode : Mode)
  /-- The cache is cleared. -/
  | clear

namespace Event

/-- What the renders answer, one after the other, through the same cache, if there is one. -/
def results (cache : Option Cache) : List Event → List (Except Diagnostic String)
  | [] => []
  | render engine files template params mode :: events =>
    let (answer, cache) := engine.render files cache template params mode
    answer :: results cache events
  | clear :: events => results (cache.map Cache.clear) events

/-- A template is looked up in the course of the events, under a nesting limit. -/
inductive LooksUp : Option Cache → List Event → Nat → String → Prop where
  /-- In the first render. -/
  | now {cache : Option Cache} {engine : Engine} {files : FileTree} {template : String}
      {params : Params} {mode : Mode} {events : List Event} {content : String}
      (h : Render.TemplateLooksUp
        ⟨params, mode, engine.source.resolver files, engine.config.limits⟩ cache template content) :
      LooksUp cache (render engine files template params mode :: events)
        engine.config.limits.nesting content
  /-- After it. -/
  | later {cache : Option Cache} {engine : Engine} {files : FileTree} {template : String}
      {params : Params} {mode : Mode} {events : List Event} {limit : Nat} {content : String}
      (h : LooksUp (engine.render files cache template params mode).2 events limit content) :
      LooksUp cache (render engine files template params mode :: events) limit content
  /-- After the cache was cleared. -/
  | cleared {cache : Option Cache} {events : List Event} {limit : Nat} {content : String}
      (h : LooksUp (cache.map Cache.clear) events limit content) :
      LooksUp cache (clear :: events) limit content

theorem results_eq_of_sound {known : Nat → String → Prop} {cache : Option Cache}
    {events : List Event} (hc : Cache.SoundIfAny known cache)
    (hk : ∀ limit content, LooksUp cache events limit content → known limit content) :
    results cache events = results none events := by
  induction events generalizing cache with
  | nil => rfl
  | cons event events ih =>
    cases event with
    | clear => exact ih hc.clear fun limit content h => hk limit content (.cleared h)
    | render engine files template params mode =>
      obtain ⟨hsame, hsound⟩ := Render.template_uncached hc fun content h => hk _ content (.now h)
      have hrest := ih hsound fun limit content h => hk limit content (.later h)
      have hnone := Render.template_none_snd
        ⟨params, mode, engine.source.resolver files, engine.config.limits⟩ template
      simp only [results, Engine.render]
      rw [hsame, hnone, hrest]

/-- The limits of every engine are numbers of 64 bits. -/
def SmallLimits (events : List Event) : Prop :=
  ∀ engine files template params mode, render engine files template params mode ∈ events →
    engine.config.limits.nesting < UInt64.size

theorem LooksUp.lt {cache : Option Cache} {events : List Event} {limit : Nat} {content : String}
    (h : LooksUp cache events limit content) (hs : SmallLimits events) : limit < UInt64.size := by
  induction h with
  | now _ => exact hs _ _ _ _ _ List.mem_cons_self
  | later _ ih => exact ih fun _ _ _ _ _ hm => hs _ _ _ _ _ (List.mem_cons_of_mem _ hm)
  | cleared _ ih => exact ih fun _ _ _ _ _ hm => hs _ _ _ _ _ (List.mem_cons_of_mem _ hm)

/-- **A shared cache never changes an answer.** Whatever its capacity, and whatever is rendered
through it and when it is cleared, each render answers what it answers without a cache, if digests
tell apart the byte strings that are looked up. -/
theorem results_eq {digest : List UInt8 → List UInt8} {capacity : Nat} {events : List Event}
    (hs : SmallLimits events)
    (hd : ∀ limit source limit' source',
      LooksUp (some (.withDigest digest capacity)) events limit source →
      LooksUp (some (.withDigest digest capacity)) events limit' source' →
      digest (Cache.keyBytes limit source) = digest (Cache.keyBytes limit' source') →
      Cache.keyBytes limit source = Cache.keyBytes limit' source') :
    results (some (.withDigest digest capacity)) events = results none events := by
  refine results_eq_of_sound ?_ fun limit content h => h
  intro c hc
  cases hc
  refine Cache.sound_withDigest capacity fun limit source limit' source' h h' heq => ?_
  exact Cache.keyBytes_inj (h.lt hs) (h'.lt hs) (hd limit source limit' source' h h' heq)

/-- Two engines with different nesting limits, and the cache cleared between renders. The digests
of the two keys are those of SHA-256. -/
theorem results_eq_two_limits :
    let text := "[% if $x %]a[% endif %]"
    let digest (bytes : List UInt8) : List UInt8 :=
      if bytes = Cache.keyBytes 1 text then
        Cache.littleEndian 32 0xc1d5c9ff17904cdadc014bda283f24024743fb5a45356fd557ac081364558135
      else if bytes = Cache.keyBytes 2 text then
        Cache.littleEndian 32 0xf06609481590b12d54f59985434bf640eb9627bccbc5c375a77dcedb77a6f6a9
      else List.replicate 33 0 ++ bytes
    let engine (nesting : Nat) : Engine := .withResolver ⟨none, ⟨1, 1, 1, nesting⟩, 0, 0, 0⟩ .none
    let run (nesting : Nat) : Event := render (engine nesting) ⟨[]⟩ text ⟨[("x", .bool true)]⟩ .html
    results (some (.withDigest digest 2)) [run 1, run 2, clear, run 1] =
      [.ok "a", .ok "a", .ok "a"] := by
  intro text digest engine run
  have hs : SmallLimits [run 1, run 2, clear, run 1] := by
    intro e files template params mode h
    simp only [run, List.mem_cons, List.not_mem_nil, or_false, render.injEq, reduceCtorEq,
      false_or] at h
    rcases h with ⟨rfl, -⟩ | ⟨rfl, -⟩ | ⟨rfl, -⟩ <;> decide
  have hd : ∀ a b, digest a = digest b → a = b := by
    have hlong (a : List UInt8) (n : Nat) : List.replicate 33 0 ++ a ≠ Cache.littleEndian 32 n := by
      intro h
      have := congrArg List.length h
      rw [List.length_append, List.length_replicate, Cache.length_littleEndian] at this
      omega
    intro a b h
    simp only [digest] at h
    split at h
    · split at h
      · simp_all
      · split at h
        · exact absurd h (by decide)
        · exact absurd h.symm (hlong _ _)
    · split at h
      · split at h
        · exact absurd h (by decide)
        · split at h
          · simp_all
          · exact absurd h.symm (hlong _ _)
      · split at h
        · exact absurd h (hlong _ _)
        · split at h
          · exact absurd h (hlong _ _)
          · exact List.append_cancel_left h
  refine (results_eq hs fun _ _ _ _ _ _ h => hd _ _ h).trans ?_
  cbv

end Event

end Stencil
