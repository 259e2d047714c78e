import Mathlib
import Stencil.Engine
import Stencil.Proofs.Html
import Stencil.Proofs.Number
import Stencil.Proofs.Render.InStep

/-!
# Rendering HTML from escaped values

The HTML mode differs from the others only in that it escapes the values. So it does what any other
mode does with values that were escaped before (`render_html_eq`): escaping makes no text empty and
none that was empty longer, so the same branches are taken, and the texts of truth values and
numbers have nothing to escape.
-/

namespace Stencil

namespace Html

/-- Nothing of a number has to be escaped. -/
theorem isSpecial_of_isNumeral {c : Char} (h : Number.isNumeral c = true) :
    isSpecial c = false := by
  have hne : ∀ d, Number.isNumeral d = false → c ≠ d := by
    rintro d hd rfl
    rw [h] at hd
    cases hd
  simp [isSpecial, specials, hne '&' (by decide), hne '<' (by decide), hne '>' (by decide),
    hne '\x22' (by decide), hne '\x27' (by decide)]

end Html

namespace Value

/-- The value with its text escaped, if it is a text. -/
def escaped : Value → Value
  | string s => string (Html.escape s)
  | v => v

theorem truthy_escaped (v : Value) : v.escaped.truthy = v.truthy := by
  cases v with
  | string s => exact congrArg not (Html.isEmpty_escape s)
  | null | bool _ | number _ => rfl

/-- **The text of the escaped value is the escaped text of the value.** -/
theorem text_escaped (v : Value) : v.escaped.text = Html.escape v.text := by
  cases v with
  | null => decide
  | bool b => cases b <;> decide
  | number n =>
    exact (Html.escape_eq_self fun c hc => Html.isSpecial_of_isNumeral (n.numeral_text c hc)).symm
  | string s => rfl

end Value

namespace Params

/-- The parameters with every text escaped. -/
def escaped (p : Params) : Params := ⟨p.fields.map fun (k, v) => (k, v.escaped)⟩

theorem get?_escaped (p : Params) (name : String) :
    p.escaped.get? name = (p.get? name).map Value.escaped := by
  obtain ⟨fields⟩ := p
  simp only [escaped, get?]
  induction fields with
  | nil => rfl
  | cons f fields ih =>
    simp only [List.map_cons, Fields.get?]
    split
    · rfl
    · exact ih

theorem truthy_escaped (p : Params) (name : String) : p.escaped.truthy name = p.truthy name := by
  rw [truthy, truthy, get?_escaped]
  cases p.get? name with
  | none => rfl
  | some v => exact v.truthy_escaped

theorem text_escaped (p : Params) (name : String) :
    p.escaped.text name = Html.escape (p.text name) := by
  rw [text, text, get?_escaped]
  cases p.get? name with
  | none => decide
  | some v => exact v.text_escaped

end Params

namespace Render

/-- Escaping what is inserted inserts what was escaped. -/
theorem twin_escaped (params : Params) (resolver : Resolver) (limits : Limits) {m : Mode}
    (hm : m ≠ .html) : Job.Twin (· = ·) ⟨params, .html, resolver, limits⟩
      ⟨params.escaped, m, resolver, limits⟩ where
  resolver_eq := rfl
  limits_eq := rfl
  truthy_eq name := (params.truthy_escaped name).symm
  text name := by
    rw [Mode.substitute_html, Mode.substitute_of_ne_html hm, params.text_escaped]

/-- Two renders that insert the same texts are the same, failures and all. -/
theorem template_eq_of_twin {a b : Job} (h : a.Twin (· = ·) b) (cache : Option Cache)
    (source : String) : template a cache source = template b cache source := by
  unfold template
  rw [h.limits_eq]
  rcases Cache.lookUp cache b.limits.nesting source with ⟨e | d, cache'⟩
  · rfl
  · simp only [(document_inStep congruent_eq h cache' source d).eq]

end Render

namespace Engine

/-- **A render in HTML mode is a render in any other mode with escaped values**: it gives the same
text or the same failure, and leaves the same cache. -/
theorem render_html_eq (e : Engine) (files : FileTree) (cache : Option Cache) (template : String)
    (params : Params) {m : Mode} (hm : m ≠ .html) :
    e.render files cache template params .html =
      e.render files cache template params.escaped m :=
  Render.template_eq_of_twin (Render.twin_escaped params _ _ hm) cache template

/-- A text that is escaped, beside a number that has nothing to escape. -/
theorem render_html_eq_css :
    let e : Engine := .withResolver ⟨none, ⟨1, 1, 10, 1⟩, 0, 0, 0⟩ .none
    let p : Params := ⟨[("a", .string "<b"), ("n", .number (.int (-7)))]⟩
    Mode.css ≠ .html ∧
      e.render ⟨[]⟩ none "[[ $n ]][[ $a ]]" p.escaped .css = (.ok "-7&lt;b", none) ∧
      e.render ⟨[]⟩ none "[[ $n ]][[ $a ]]" p .html =
        e.render ⟨[]⟩ none "[[ $n ]][[ $a ]]" p.escaped .css := by
  intro e p
  have hm : Mode.css ≠ .html := by decide
  exact ⟨hm, by cbv, render_html_eq e ⟨[]⟩ none "[[ $n ]][[ $a ]]" p hm⟩

end Engine

end Stencil
