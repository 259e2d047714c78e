import Stencil.Proofs.Engine.Sharing
import Stencil.Proofs.Render.Inlining

/-!
# Rendering two templates put together

A render leaves nothing behind but its text and the count of its includes. So two templates, put
together without making a marker where they meet, render to their two texts put together, as long
as the limits leave room for both (`Engine.render_append`).

The document of both is that of the first and, after it, that of the second, moved and with the
literal texts that meet made one. None of this changes what nodes mean, and what the two documents
mean, one after the other, is what the two renders have given.
-/

namespace Stencil

open Literal

/-! ### Documents put together -/

namespace Node.Compatible

variable {R : List Node → List Node → Prop}

mutual

/-- A node stands for itself at other offsets. -/
theorem related_move (hR : Node.Compatible R) (g : Nat → Nat) : ∀ n : Node, R [n] [n.move g]
  | .literal text span => hR.move (x := ⟨.text text, span⟩) g rfl
  | .interpolation name span => hR.move (x := ⟨.interpolation name, span⟩) g rfl
  | .inclusion path span => hR.move (x := ⟨.directive (.includeD path), span⟩) g rfl
  | .conditional branches otherwise _ =>
    hR.conditional (related_moveBranches hR g branches) (related_moveLast hR g otherwise)

/-- Branches stand for themselves at other offsets. -/
theorem related_moveBranches (hR : Node.Compatible R) (g : Nat → Nat) : ∀ bs : List Branch,
    List.Forall₂ (Branch.Related R) bs (Branch.moveAll g bs)
  | [] => .nil
  | .mk _ _ body :: bs => .cons ⟨rfl, related_moveAll hR g body⟩ (related_moveBranches hR g bs)

/-- A last part stands for itself at other offsets. -/
theorem related_moveLast (hR : Node.Compatible R) (g : Nat → Nat) : ∀ last : Option (List Node),
    Option.Rel R last (Node.moveLast g last)
  | none => .none
  | some ns => .some (related_moveAll hR g ns)

/-- Nodes stand for themselves at other offsets. -/
theorem related_moveAll (hR : Node.Compatible R) (g : Nat → Nat) : ∀ ns : List Node,
    R ns (Node.moveAll g ns)
  | [] => hR.refl []
  | n :: ns => hR.append (related_move hR g n) (related_moveAll hR g ns)

end

/-- Nodes may be welded to others. -/
theorem related_weld (hR : Node.Compatible R) (xs ys : List Node) : R (xs ++ ys) (weld xs ys) := by
  induction xs with
  | nil => exact hR.refl ys
  | cons x xs ih =>
    by_cases hw : text? x = none ∨ xs ≠ []
    · have hweld : weld (x :: xs) ys = [x] ++ weld xs ys :=
        hw.elim (weld_cons · xs ys) (weld_cons_of_ne_nil · x ys)
      rw [hweld, List.cons_append]
      exact hR.append (hR.refl [x]) ih
    · simp only [not_or, not_not] at hw
      obtain ⟨hx, rfl⟩ := hw
      cases x with
      | literal a s =>
        match ys with
        | .literal b t :: ys =>
          have hone : R [.literal a s, .literal b t] [.literal (a ++ b) ⟨s.start, t.stop⟩] :=
            hR.literal
          exact hR.append hone (hR.refl ys)
        | [] | .interpolation .. :: ys | .inclusion .. :: ys | .conditional .. :: ys =>
          exact hR.refl _
      | _ => exact absurd rfl hx

end Node.Compatible

namespace Document

/-- The document of two templates is that of the first welded to that of the second, which stands
elsewhere. -/
theorem exists_parse_append {limit : Nat} {s₁ s₂ : String} {d₁ d₂ : Document}
    (h₁ : parse limit s₁ = .ok d₁) (h₂ : parse limit s₂ = .ok d₂) (hs : Seam s₁.toList s₂.toList) :
    ∃ g, parse limit (s₁ ++ s₂) = .ok ⟨weld d₁.nodes (Node.moveAll g d₂.nodes)⟩ := by
  rw [parse_eq_ofItems] at h₁ h₂
  obtain ⟨items, hitems, hd₁⟩ := bind_eq_ok_iff.1 h₁
  obtain ⟨more, hmore, hd₂⟩ := bind_eq_ok_iff.1 h₂
  obtain ⟨g, hg⟩ := exists_move_itemsFrom hmore (0 + Text.size s₁.toList)
  refine ⟨g, ?_⟩
  rw [parse_eq_ofItems, String.toList_append, itemsFrom_append hitems hs, hg, map_ok, ok_bind,
    ofItems_weld hd₁, ofItems_move, hd₂]
  rfl

end Document

namespace Render

variable {job : Job} {cache : Option Cache} {source : String}

/-! ### The count of includes -/

/-- How many includes a render of `source` asks for; none if this does not parse. -/
def asked (job : Job) (cache : Option Cache) (source : String) : Nat :=
  match Cache.lookUp cache job.limits.nesting source with
  | (.error _, _) => 0
  | (.ok d, cache) => (document job cache source d).progress.includes

theorem AnswersRight.asked_eq (h : AnswersRight job cache source) :
    asked job cache source = asked job none source := by
  obtain ⟨known, hc, hk⟩ := h
  have hfst := hc.lookUp_fst (hk source (.inl rfl))
  unfold asked
  rcases hl : Cache.lookUp cache job.limits.nesting source with ⟨e | d, cache'⟩
  · rw [hl] at hfst
    rw [Cache.lookUp_none, ← hfst]
  · obtain ⟨hparse, hdoc, -⟩ := document_uncached hc hk hl
    rw [Cache.lookUp_none, hparse]
    simp only [hdoc]
    rfl

/-- A render that gives a text asks for as many includes as there are in what its nodes mean. -/
theorem asked_none_eq {d : Document} {m : Meaning}
    (hd : Document.parse job.limits.nesting source = .ok d)
    (hm : AllMean job ⟨source, []⟩ d.nodes m) (hr : Room job.limits 0 ⟨"", 0, none⟩ m) :
    asked job none source = m.includes := by
  have hdoc := (document_gives source d _).2 ⟨m, hm, hr, rfl⟩
  rw [asked, Cache.lookUp_none, hd]
  show (document job none source d).progress.includes = m.includes
  rw [hdoc]
  exact Nat.zero_add _

/-! ### Templates put together -/

/-- What two documents mean, one after the other, is covered by the document of both. -/
theorem covers_weld (frame : Frame) (g : Nat → Nat) (ns ns' : List Node) :
    Covers job frame (ns ++ ns') (weld ns (Node.moveAll g ns')) := by
  have hR : Node.Compatible (Covers job frame) := compatible_covers
  exact hR.trans (hR.append (hR.refl ns) (hR.related_moveAll g ns')) (hR.related_weld ns _)

theorem template_none_append {s₁ s₂ o₁ o₂ : String} (hs : Seam s₁.toList s₂.toList)
    (h₁ : (template job none s₁).1 = .ok o₁) (h₂ : (template job none s₂).1 = .ok o₂)
    (hi : asked job none s₁ + asked job none s₂ ≤ job.limits.includes)
    (hb : o₁.utf8ByteSize + o₂.utf8ByteSize ≤ job.limits.bytes) :
    (template job none (s₁ ++ s₂)).1 = .ok (o₁ ++ o₂) := by
  obtain ⟨d₁, m₁, hd₁, hm₁, hr₁, rfl⟩ := template_none_eq_ok_iff.1 h₁
  obtain ⟨d₂, m₂, hd₂, hm₂, hr₂, rfl⟩ := template_none_eq_ok_iff.1 h₂
  rw [asked_none_eq hd₁ hm₁ hr₁, asked_none_eq hd₂ hm₂ hr₂] at hi
  obtain ⟨g, hd⟩ := Document.exists_parse_append hd₁ hd₂ hs
  have hboth : AllMean job ⟨s₁ ++ s₂, []⟩ (d₁.nodes ++ d₂.nodes) (m₁.andThen m₂) :=
    allMean_append_iff.2 ⟨m₁, m₂, hm₁, hm₂, rfl⟩
  have hroom : Room job.limits 0 ⟨"", 0, none⟩ (m₁.andThen m₂) := by
    have hd₁ := hr₁.depth_le
    have hd₂ := hr₂.depth_le
    constructor
    · simpa [Meaning.andThen] using hi
    · simp only [Meaning.andThen]
      omega
    · simpa [Meaning.andThen] using hb
  obtain ⟨m, hm, hle⟩ := covers_weld _ g d₁.nodes d₂.nodes _ hboth
  exact template_none_eq_ok_iff.2 ⟨_, m, hd, hm, hroom.of_atMost hle, hle.text⟩

end Render

namespace Engine

variable {e : Engine} {files : FileTree} {params : Params} {mode : Mode}

/-- How many includes a render asks for. -/
def asked (e : Engine) (files : FileTree) (cache : Option Cache) (template : String)
    (params : Params) (mode : Mode) : Nat :=
  Render.asked ⟨params, mode, e.source.resolver files, e.config.limits⟩ cache template

/-- **Two templates put together render to their texts put together.** The first must not end in a
bracket that makes a marker with the beginning of the second; and the limits must allow for the
includes of both and for both texts. With or without caches, as long as these answer right. -/
theorem render_append {s₁ s₂ o₁ o₂ : String} {cache₁ cache₂ cache : Option Cache}
    (hc₁ : e.CacheFits files cache₁ s₁ params mode) (hc₂ : e.CacheFits files cache₂ s₂ params mode)
    (hc : e.CacheFits files cache (s₁ ++ s₂) params mode)
    (hs : ¬ (s₁.toList.getLast? = some '[' ∧
      (s₂.toList.head? = some '[' ∨ s₂.toList.head? = some '%')))
    (h₁ : (e.render files cache₁ s₁ params mode).1 = .ok o₁)
    (h₂ : (e.render files cache₂ s₂ params mode).1 = .ok o₂)
    (hi : e.asked files cache₁ s₁ params mode + e.asked files cache₂ s₂ params mode ≤
      e.config.limits.includes)
    (hb : o₁.utf8ByteSize + o₂.utf8ByteSize ≤ e.config.limits.bytes) :
    (e.render files cache (s₁ ++ s₂) params mode).1 = .ok (o₁ ++ o₂) := by
  rw [hc₁.render_fst] at h₁
  rw [hc₂.render_fst] at h₂
  rw [asked, asked, hc₁.asked_eq, hc₂.asked_eq] at hi
  rw [hc.render_fst]
  exact Render.template_none_append hs h₁ h₂ hi hb

/-- Both templates have an include, and literal texts meet. -/
theorem render_append_where_texts_meet :
    let e : Engine := .withResolver ⟨none, ⟨1, 2, 9, 0⟩, 0, 0, 0⟩ fun _ => .ok ⟨"k", "[[ $x ]]"⟩
    let s₁ := "a[% include 'k' %]["
    let s₂ := "b[% include 'k' %]"
    (e.render ⟨[]⟩ none s₁ ⟨[("x", .string "é")]⟩ .xml).1 = .ok "aé[" ∧
      (e.render ⟨[]⟩ none s₂ ⟨[("x", .string "é")]⟩ .xml).1 = .ok "bé" ∧
      (e.render ⟨[]⟩ none (s₁ ++ s₂) ⟨[("x", .string "é")]⟩ .xml).1 = .ok "aé[bé" := by
  intro e s₁ s₂
  have h₁ : (e.render ⟨[]⟩ none s₁ ⟨[("x", .string "é")]⟩ .xml).1 = .ok "aé[" := by cbv
  have h₂ : (e.render ⟨[]⟩ none s₂ ⟨[("x", .string "é")]⟩ .xml).1 = .ok "bé" := by cbv
  have hi : e.asked ⟨[]⟩ none s₁ ⟨[("x", .string "é")]⟩ .xml +
      e.asked ⟨[]⟩ none s₂ ⟨[("x", .string "é")]⟩ .xml = 2 := by cbv
  exact ⟨h₁, h₂, render_append cacheFits_none cacheFits_none cacheFits_none (by decide) h₁ h₂ hi.le
    (by decide)⟩

end Engine

end Stencil
