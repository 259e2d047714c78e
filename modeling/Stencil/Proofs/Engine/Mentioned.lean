import Mathlib
import Stencil.Proofs.Engine.Sharing

/-!
# The names that a template mentions

A template mentions the names of its interpolations and those in its conditions, of the branches
that are not taken too. A render looks at its parameters only where the template mentions a name,
or an include does. So two lists of parameters that give these names the same truth and the same
text give the same render, the same failure included; and null is the same as no value at all
(`render_eq_of_agreeAt`).
-/

namespace Stencil

/-! ### Names -/

namespace Condition

mutual

/-- The names in a condition. -/
def names : Condition → List String
  | param name => [name]
  | not c => names c
  | and cs => allNames cs
  | or cs => allNames cs

/-- The names in several conditions. -/
def allNames : List Condition → List String
  | [] => []
  | c :: cs => names c ++ allNames cs

end

section

variable {truthy truthy' : String → Bool}

mutual

/-- Whether a condition holds depends only on the names in it. -/
theorem holds_congr : ∀ c : Condition, (∀ name ∈ c.names, truthy name = truthy' name) →
    c.holds truthy = c.holds truthy'
  | param name, h => h name List.mem_cons_self
  | not c, h => congrArg Bool.not (holds_congr c h)
  | and cs, h => (allHold_anyHolds_congr cs h).1
  | or cs, h => (allHold_anyHolds_congr cs h).2

theorem allHold_anyHolds_congr : ∀ cs : List Condition,
    (∀ name ∈ allNames cs, truthy name = truthy' name) →
      allHold truthy cs = allHold truthy' cs ∧ anyHolds truthy cs = anyHolds truthy' cs
  | [], _ => ⟨rfl, rfl⟩
  | c :: cs, h => by
    have hc := holds_congr c fun name hn => h name (List.mem_append_left _ hn)
    obtain ⟨hall, hany⟩ :=
      allHold_anyHolds_congr cs fun name hn => h name (List.mem_append_right _ hn)
    rw [allHold, allHold, anyHolds, anyHolds, hc, hall, hany]
    exact ⟨rfl, rfl⟩

end

end

end Condition

mutual

/-- The names that a node mentions. -/
def Node.names : Node → List String
  | .literal _ _ | .inclusion _ _ => []
  | .interpolation name _ => [name]
  | .conditional branches otherwise _ => Branch.allNames branches ++ Node.lastNames otherwise

/-- The names that a branch mentions, in its condition and in its body. -/
def Branch.names : Branch → List String
  | .mk condition _ body => condition.names ++ Node.allNames body

/-- The names that several branches mention. -/
def Branch.allNames : List Branch → List String
  | [] => []
  | b :: bs => b.names ++ Branch.allNames bs

/-- The names that a last part mentions, if there is one. -/
def Node.lastNames : Option (List Node) → List String
  | none => []
  | some body => Node.allNames body

/-- The names that several nodes mention. -/
def Node.allNames : List Node → List String
  | [] => []
  | n :: ns => n.names ++ Node.allNames ns

end

/-- The names that a document mentions. -/
def Document.names (d : Document) : List String := Node.allNames d.nodes

/-! ### Parameters that agree -/

namespace Params

/-- A name is truthy in both lists of parameters or in neither, and has the same text in both. -/
structure AgreeAt (p q : Params) (name : String) : Prop where
  /-- It is truthy in both or in neither. -/
  truthy_eq : p.truthy name = q.truthy name
  /-- It has the same text. -/
  text_eq : p.text name = q.text name

/-- Null is no value: a name that has none agrees with itself set to null, and so do all others. -/
theorem agreeAt_insert_null {p : Params} {name : String} (h : p.get? name = none)
    (other : String) : p.AgreeAt (p.insert name .null) other := by
  by_cases ho : other = name
  · subst ho
    have hnull : (p.insert other .null).get? other = some .null := Fields.get?_insert_self ..
    constructor
    · rw [truthy, truthy, h, hnull]
      rfl
    · rw [text, text, h, hnull]
      rfl
  · have hsame : (p.insert name .null).get? other = p.get? other :=
      Fields.get?_insert_of_ne ho ..
    constructor
    · rw [truthy, truthy, hsame]
    · rw [text, text, hsame]

end Params

namespace Render

/-- A name is mentioned by the template `source`, or by content that a path leads to. -/
inductive Mentioned (resolver : Resolver) (nesting : Nat) (source name : String) : Prop where
  /-- By the template. -/
  | template {d : Document} (hd : Document.parse nesting source = .ok d) (hn : name ∈ d.names)
  /-- By content. -/
  | content {path : String} {r : Resolved} {d : Document} (hr : resolver path = .ok r)
      (hd : Document.parse nesting r.content = .ok d) (hn : name ∈ d.names)

variable {p q : Params} {mode : Mode} {resolver : Resolver} {limits : Limits}

theorem select_mk (params : Params) (c : Condition) (span : Span) (body : List Node)
    (bs : List Branch) (otherwise : Option (List Node)) :
    select params (.mk c span body :: bs) otherwise =
      if c.test params then some body else select params bs otherwise := rfl

/-- The same body is taken, and all that it mentions is mentioned by the conditional. -/
theorem select_congr {branches : List Branch} {otherwise : Option (List Node)}
    (h : ∀ name ∈ Branch.allNames branches ++ Node.lastNames otherwise, p.AgreeAt q name) :
    select p branches otherwise = select q branches otherwise ∧
      ∀ body, select p branches otherwise = some body →
        ∀ name ∈ Node.allNames body, p.AgreeAt q name := by
  induction branches with
  | nil =>
    refine ⟨rfl, ?_⟩
    rintro body hbody name hn
    obtain rfl : otherwise = some body := hbody
    exact h name hn
  | cons b bs ih =>
    obtain ⟨c, span, body⟩ := b
    obtain ⟨heq, hbody⟩ := ih fun name hn => h name <| by
      rw [Branch.allNames, List.append_assoc]
      exact List.mem_append_right _ hn
    have hfirst : ∀ name ∈ c.names ++ Node.allNames body, p.AgreeAt q name :=
      fun name hn => h name (List.mem_append_left _ (List.mem_append_left _ hn))
    have htest : c.test p = c.test q :=
      Condition.holds_congr c fun name hn => (hfirst name (List.mem_append_left _ hn)).truthy_eq
    rw [select_mk, select_mk, ← htest]
    by_cases hc : c.test p = true
    · rw [if_pos hc, if_pos hc]
      refine ⟨rfl, ?_⟩
      rintro _ ⟨⟩ name hn
      exact hfirst name (List.mem_append_right _ hn)
    · rw [if_neg hc, if_neg hc]
      exact ⟨heq, hbody⟩

/-- **Without a cache a walk is the same for parameters that agree** on the names that its nodes
mention and on those that content mentions. -/
theorem walk_congr (hcontent : ∀ path r d, resolver path = .ok r →
      Document.parse limits.nesting r.content = .ok d → ∀ name ∈ d.names, p.AgreeAt q name) :
    (∀ frame list s, s.cache = none → (∀ name ∈ Node.allNames list, p.AgreeAt q name) →
      nodes ⟨p, mode, resolver, limits⟩ frame list s =
        nodes ⟨q, mode, resolver, limits⟩ frame list s) ∧
    ∀ frame n s, s.cache = none → (∀ name ∈ n.names, p.AgreeAt q name) →
      node ⟨p, mode, resolver, limits⟩ frame n s =
        node ⟨q, mode, resolver, limits⟩ frame n s := by
  refine @walk_induction ⟨p, mode, resolver, limits⟩ _ _
    ?nil ?cons ?literal ?interpolation ?conditional ?inclusion
  case nil =>
    intro frame s _ _
    rw [nodes_nil, nodes_nil]
  case cons =>
    intro frame n ns s ihn ihns hs h
    have hn := ihn hs fun name hname => h name (List.mem_append_left _ hname)
    have hcache := cache_node_eq_none ⟨p, mode, resolver, limits⟩ frame n hs
    rw [nodes_cons, nodes_cons, ← hn]
    rcases hnode : node ⟨p, mode, resolver, limits⟩ frame n s with ⟨_ | d, s'⟩
    · rw [hnode] at hcache
      exact ihns s' hcache fun name hname => h name (List.mem_append_right _ hname)
    · rfl
  case literal =>
    intro frame text span s _ _
    rw [node_literal, node_literal]
    rfl
  case interpolation =>
    intro frame name span s _ h
    rw [node_interpolation, node_interpolation]
    simp only [(h name List.mem_cons_self).text_eq]
    rfl
  case conditional =>
    intro frame branches otherwise span s ih hs h
    obtain ⟨heq, hbody⟩ := select_congr h
    rw [node_conditional, node_conditional, ← heq]
    cases hsel : select p branches otherwise with
    | none => rfl
    | some body => exact ih body hsel hs (hbody body hsel)
  case inclusion =>
    intro frame path span s ih hs _
    by_cases hd : frame.keys.length < limits.depth
    · rw [node_inclusion _ _ _ _ _ hd, node_inclusion _ _ _ _ _ hd]
      -- looking an include up takes no notice of the parameters
      have hfetch : fetch ⟨q, mode, resolver, limits⟩ frame span path s =
          fetch ⟨p, mode, resolver, limits⟩ frame span path s := rfl
      rw [hfetch]
      rcases hf : fetch ⟨p, mode, resolver, limits⟩ frame span path s with ⟨e | ⟨r, d⟩, s'⟩
      · rfl
      · obtain ⟨-, hr, -, hparse, rfl⟩ := (fetch_eq_ok_iff span).1 hf
        rw [hs, Cache.lookUp_none] at hparse
        refine ih r d _ hd hf ?_ (hcontent path r d hr hparse)
        rw [hs, Cache.lookUp_none]
    · rw [node_tooDeep _ _ _ _ _ (Nat.not_lt.1 hd), node_tooDeep _ _ _ _ _ (Nat.not_lt.1 hd)]

theorem template_none_congr {source : String}
    (h : ∀ name, Mentioned resolver limits.nesting source name → p.AgreeAt q name) :
    (template ⟨p, mode, resolver, limits⟩ none source).1 =
      (template ⟨q, mode, resolver, limits⟩ none source).1 := by
  rw [template_none_fst, template_none_fst]
  cases hparse : Document.parse limits.nesting source with
  | error e => rfl
  | ok d =>
    have hwalk := (@walk_congr p q mode resolver limits fun path r d hr hd name hn =>
      h name (.content hr hd hn)).1 ⟨source, []⟩ d.nodes ⟨"", 0, none⟩ rfl fun name hn =>
        h name (.template hparse hn)
    exact congrArg Outcome.result hwalk

end Render

namespace Engine

open Render

variable {e : Engine} {files : FileTree} {template : String} {mode : Mode}

/-- **Only the parameters that a template mentions can matter, and null is no value.** Two renders
of one template give the same text or fail in the same way if the parameters agree on every name
that the template mentions or that content mentions which an include can lead to. And a name that
has no value may be set to null. With or without caches, as long as these answer right. -/
theorem render_eq_of_agreeAt (p : Params) :
    (∀ q, (∀ name, Mentioned (e.source.resolver files) e.config.limits.nesting template name →
        p.AgreeAt q name) →
      ∀ cache cache', e.CacheFits files cache template p mode →
        e.CacheFits files cache' template q mode →
        (e.render files cache template p mode).1 = (e.render files cache' template q mode).1) ∧
    ∀ name, p.get? name = none →
      ∀ cache cache', e.CacheFits files cache template p mode →
        e.CacheFits files cache' template (p.insert name .null) mode →
        (e.render files cache template p mode).1 =
          (e.render files cache' template (p.insert name .null) mode).1 := by
  have hsame : ∀ q, (∀ name,
      Mentioned (e.source.resolver files) e.config.limits.nesting template name →
        p.AgreeAt q name) →
      ∀ cache cache', e.CacheFits files cache template p mode →
        e.CacheFits files cache' template q mode →
        (e.render files cache template p mode).1 =
          (e.render files cache' template q mode).1 := by
    intro q h cache cache' hc hc'
    rw [hc.render_fst, hc'.render_fst]
    exact template_none_congr h
  exact ⟨hsame, fun name hn => hsame _ fun other _ => Params.agreeAt_insert_null hn other⟩

/-- One of two parameters is mentioned in a condition that does not hold, the other in an include.
A third is mentioned nowhere and may have any value. -/
theorem render_eq_of_agreeAt_beside_unmentioned :
    let template := "[% if $b %]1[% else %][% include 'k' %][% endif %]"
    let e : Engine := .withResolver ⟨none, ⟨1, 1, 10, 1⟩, 0, 0, 0⟩ fun _ => .ok ⟨"k", "[[ $a ]]"⟩
    let p : Params := ⟨[("a", .string "x"), ("z", .string "1")]⟩
    let q : Params := ⟨[("a", .string "x"), ("b", .string ""), ("z", .null)]⟩
    (∀ name, Mentioned (e.source.resolver ⟨[]⟩) e.config.limits.nesting template name →
        p.AgreeAt q name) ∧
      p.get? "b" = none ∧ (e.render ⟨[]⟩ none template p .html).1 = .ok "x" ∧
      (e.render ⟨[]⟩ none template p .html).1 = (e.render ⟨[]⟩ none template q .html).1 ∧
      (e.render ⟨[]⟩ none template p .html).1 =
        (e.render ⟨[]⟩ none template (p.insert "b" .null) .html).1 := by
  intro template e p q
  have htemplate : Document.parse 1 template =
      .ok ⟨[.conditional [.mk (.param "b") ⟨6, 8⟩ [.literal "1" ⟨11, 12⟩]]
        (some [.inclusion "k" ⟨22, 39⟩]) ⟨0, 50⟩]⟩ := by cbv
  have hcontent : Document.parse 1 "[[ $a ]]" = .ok ⟨[.interpolation "a" ⟨0, 8⟩]⟩ := by cbv
  have ha : p.AgreeAt q "a" := ⟨by decide, by decide⟩
  have hb : p.AgreeAt q "b" := ⟨by decide, by decide⟩
  have h : ∀ name, Mentioned (e.source.resolver ⟨[]⟩) e.config.limits.nesting template name →
      p.AgreeAt q name := by
    rintro name (⟨hd, hn⟩ | ⟨hr, hd, hn⟩)
    · cases htemplate.symm.trans hd
      obtain rfl := List.mem_singleton.1 hn
      exact hb
    · cases hr
      cases hcontent.symm.trans hd
      obtain rfl := List.mem_singleton.1 hn
      exact ha
  have hnull : p.get? "b" = none := by decide
  obtain ⟨hsame, hinsert⟩ := @render_eq_of_agreeAt e ⟨[]⟩ template .html p
  exact ⟨h, hnull, by cbv, hsame q h none none cacheFits_none cacheFits_none,
    hinsert "b" hnull none none cacheFits_none cacheFits_none⟩

end Engine

end Stencil
