import Mathlib
import Stencil.Proofs.Html
import Stencil.Proofs.Render.InStep

/-!
# Markup of a render

In HTML mode all that is inserted for a name is escaped. So the markup of an output is that of the
literal texts that were taken, in the template and in the includes, and these depend on the
parameters only through which of them are truthy (`markup_eq`).
-/

namespace Stencil

namespace Render

variable {p q : Params} {resolver : Resolver} {limits : Limits} {cache : Option Cache}
  {source s t : String}

theorem congruent_markup : Congruent fun s t => Html.markup s = Html.markup t where
  refl _ := rfl
  append hs ht := by rw [Html.markup_append, Html.markup_append, hs, ht]

theorem twin_markup (h : ∀ name, p.truthy name = q.truthy name) (resolver : Resolver)
    (limits : Limits) : Job.Twin (fun s t => Html.markup s = Html.markup t)
      ⟨p, .html, resolver, limits⟩ ⟨q, .html, resolver, limits⟩ where
  resolver_eq := rfl
  limits_eq := rfl
  truthy_eq := h
  text name := by
    rw [Mode.substitute_html, Mode.substitute_html, Html.markup_escape, Html.markup_escape]

/-- **In HTML mode the values of the parameters have no influence on the markup.** If the same names
are truthy in two renders of one template and both give a text, the two texts have the same markup
characters in the same order. -/
theorem markup_eq (h : ∀ name, p.truthy name = q.truthy name)
    (hs : (template ⟨p, .html, resolver, limits⟩ cache source).1 = .ok s)
    (ht : (template ⟨q, .html, resolver, limits⟩ cache source).1 = .ok t) :
    Html.markup s = Html.markup t := by
  obtain ⟨d, hd, a, ha, rfl⟩ := template_fst_eq_ok_iff.1 hs
  obtain ⟨d', hd', b, hb, rfl⟩ := template_fst_eq_ok_iff.1 ht
  rw [hd, Except.ok.injEq] at hd'
  subst hd'
  have hstep := document_inStep congruent_markup (twin_markup h resolver limits)
    (Cache.lookUp cache limits.nesting source).2 source d
  rw [ha, hb] at hstep
  exact hstep.output

/-- A value with a tag in it and one without, inserted also inside an include. -/
theorem markup_eq_of_tag_in_value :
    let p : Params := ⟨[("a", .string "<i>")]⟩
    let q : Params := ⟨[("a", .string "x")]⟩
    let job (params : Params) : Job :=
      ⟨params, .html, fun _ => .ok ⟨"k", "'[[ $a ]]'"⟩, ⟨1, 1, 20, 1⟩⟩
    let source := "<b>[% include 'k' %]"
    (∀ name, p.truthy name = q.truthy name) ∧
      (template (job p) none source).1 = .ok "<b>'&lt;i&gt;'" ∧
      (template (job q) none source).1 = .ok "<b>'x'" ∧
      Html.markup "<b>'&lt;i&gt;'" = Html.markup "<b>'x'" := by
  intro p q job source
  have h : ∀ name, p.truthy name = q.truthy name := by
    intro name
    by_cases hname : "a" = name
    · subst hname
      decide
    · simp [p, q, Params.truthy, Params.get?, Fields.get?, hname]
  have hs : (template (job p) none source).1 = .ok "<b>'&lt;i&gt;'" := by cbv
  have ht : (template (job q) none source).1 = .ok "<b>'x'" := by cbv
  exact ⟨h, hs, ht, markup_eq h hs ht⟩

end Render

end Stencil
