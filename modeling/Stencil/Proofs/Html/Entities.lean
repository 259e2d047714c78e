import Mathlib
import Stencil.Proofs.Html

/-!
# Reading an escaped text back

Escaping writes each of five characters as an entity. In what it writes an ampersand stands only
where an entity begins, so whoever replaces the entities by their characters, from left to right,
gets the text back, also one that had entities in it before (`unescape_escape`). So no two texts are
escaped to the same, and no markup gets through (`escape_faithful`).
-/

namespace Stencil

namespace Html

variable {c : Char} {cs name rest : List Char} {s : String}

/-- The entities, each with the character that it stands for. -/
def entities : List (List Char × Char) :=
  [("&amp;".toList, '&'), ("&lt;".toList, '<'), ("&gt;".toList, '>'), ("&quot;".toList, '\x22'),
    ("&#39;".toList, '\x27')]

/-- The text with every entity replaced by its character, from left to right. -/
def unescapeChars : List Char → List Char
  | [] => []
  | c :: cs =>
    match entities.find? (·.1.isPrefixOf (c :: cs)) with
    | some (entity, d) => d :: unescapeChars (cs.drop (entity.length - 1))
    | none => c :: unescapeChars cs
termination_by cs => cs.length
decreasing_by all_goals grind

/-- A text as it was before it was escaped. -/
def unescape (s : String) : String := String.ofList (unescapeChars s.toList)

/-! ### Entities -/

theorem entity?_eq_none_iff : entity? c = none ↔ ∀ e ∈ entities, c ≠ e.2 := by
  simp only [entity?, entities]
  split_ifs <;> simp_all

/-- A character that is not written as it is has an entity in the table. -/
theorem mem_entities (h : entity? c = some name) : ('&' :: name, c) ∈ entities := by
  simp only [entity?] at h
  split_ifs at h <;> simp_all [entities]

/-- An ampersand begins an entity, and there is no other one in it. -/
theorem exists_cons_of_mem_entities {e : List Char × Char} (h : e ∈ entities) :
    ∃ name, e.1 = '&' :: name ∧ '&' ∉ name := by
  simp only [entities, List.mem_cons, List.not_mem_nil, or_false] at h
  obtain rfl | rfl | rfl | rfl | rfl := h
  all_goals exact ⟨_, rfl, by decide⟩

theorem amp_notMem (h : entity? c = some name) : '&' ∉ name := by
  obtain ⟨other, heq, hnot⟩ := exists_cons_of_mem_entities (mem_entities h)
  rwa [(List.cons.inj heq).2]

theorem amp_ne (h : entity? c = none) : c ≠ '&' :=
  entity?_eq_none_iff.1 h ("&amp;".toList, '&') List.mem_cons_self

theorem escapeChar_of_none (h : entity? c = none) : escapeChar c = [c] := by
  rw [escapeChar, h]

theorem escapeChar_of_some (h : entity? c = some name) : escapeChar c = '&' :: name := by
  rw [escapeChar, h]

theorem escapeChars_cons (c : Char) (cs : List Char) :
    escapeChars (c :: cs) = escapeChar c ++ escapeChars cs := List.flatMap_cons

/-! ### Reading back -/

theorem unescapeChars_entity (h : (name, c) ∈ entities) (rest : List Char) :
    unescapeChars (name ++ rest) = c :: unescapeChars rest := by
  simp only [entities, List.mem_cons, Prod.mk.injEq, List.not_mem_nil, or_false] at h
  obtain ⟨rfl, rfl⟩ | ⟨rfl, rfl⟩ | ⟨rfl, rfl⟩ | ⟨rfl, rfl⟩ | ⟨rfl, rfl⟩ := h
  all_goals simp [unescapeChars, entities]

theorem unescapeChars_cons (h : c ≠ '&') (rest : List Char) :
    unescapeChars (c :: rest) = c :: unescapeChars rest := by
  have hnone : entities.find? (·.1.isPrefixOf (c :: rest)) = none := by
    refine List.find?_eq_none.2 fun e he hprefix => ?_
    obtain ⟨name, heq, -⟩ := exists_cons_of_mem_entities he
    rw [heq, List.isPrefixOf_iff_prefix, List.cons_prefix_cons] at hprefix
    exact h hprefix.1.symm
  rw [unescapeChars, hnone]

theorem unescapeChars_escapeChar (c : Char) (rest : List Char) :
    unescapeChars (escapeChar c ++ rest) = c :: unescapeChars rest := by
  cases h : entity? c with
  | none => rw [escapeChar_of_none h, List.singleton_append, unescapeChars_cons (amp_ne h)]
  | some name => rw [escapeChar_of_some h, unescapeChars_entity (mem_entities h)]

theorem unescapeChars_escapeChars (cs : List Char) : unescapeChars (escapeChars cs) = cs := by
  induction cs with
  | nil => rw [escapeChars, List.flatMap_nil, unescapeChars]
  | cons c cs ih => rw [escapeChars_cons, unescapeChars_escapeChar, ih]

/-- **Replacing the entities gives the text back.** -/
theorem unescape_escape (s : String) : unescape (escape s) = s := by
  rw [unescape, toList_escape, unescapeChars_escapeChars, String.ofList_toList]

/-! ### What is written -/

/-- Where an ampersand stands behind characters that are none, it stands in what follows them. -/
theorem suffix_of_suffix_append {cs : List Char} (h : '&' ∉ name)
    (hs : '&' :: rest <:+ name ++ cs) : '&' :: rest <:+ cs := by
  induction name with
  | nil => exact hs
  | cons c name ih =>
    rw [List.mem_cons, not_or] at h
    rw [List.cons_append, List.suffix_cons_iff] at hs
    obtain heq | hs := hs
    · exact absurd (List.cons.inj heq).1 h.1
    · exact ih h.2 hs

/-- **Every ampersand begins an entity.** -/
theorem exists_entity_of_suffix (h : '&' :: rest <:+ escapeChars cs) :
    ∃ e ∈ entities, e.1 <+: '&' :: rest := by
  induction cs with
  | nil => cases List.suffix_nil.1 h
  | cons c cs ih =>
    rw [escapeChars_cons] at h
    cases hc : entity? c with
    | none =>
      rw [escapeChar_of_none hc] at h
      exact ih (suffix_of_suffix_append (by simpa using (amp_ne hc).symm) h)
    | some name =>
      rw [escapeChar_of_some hc, List.cons_append, List.suffix_cons_iff] at h
      obtain heq | h := h
      · exact ⟨_, mem_entities hc, heq ▸ List.prefix_append ('&' :: name) (escapeChars cs)⟩
      · exact ih (suffix_of_suffix_append (amp_notMem hc) h)

theorem isMarkup_of_mem_escape {s : String} (h : c ∈ (escape s).toList) : isMarkup c = false := by
  have hnil := List.filter_eq_nil_iff.1 (markup_escape s) c h
  exact Bool.eq_false_of_not_eq_true hnil

theorem escape_append (s t : String) : escape (s ++ t) = escape s ++ escape t := by
  rw [← String.toList_inj, String.toList_append, toList_escape, toList_escape, toList_escape,
    String.toList_append, escapeChars_append]

/-- **Escaping loses nothing and lets no markup through.** It escapes a text piece by piece. What it
writes has none of the four markup characters, and an ampersand only where an entity begins. To
replace the entities by their characters, from left to right, gives the text back, so different
texts are escaped to different ones. A text that has none of the five characters is left as it is,
and this is what writing its characters one by one would give too. -/
theorem escape_faithful (s : String) :
    (∀ t, escape (s ++ t) = escape s ++ escape t) ∧
    (∀ c ∈ (escape s).toList, c ≠ '<' ∧ c ≠ '>' ∧ c ≠ '\x22' ∧ c ≠ '\x27') ∧
    (∀ rest, '&' :: rest <:+ (escape s).toList → ∃ e ∈ entities, e.1 <+: '&' :: rest) ∧
    unescape (escape s) = s ∧
    (∀ t, escape s = escape t → s = t) ∧
    escape s = String.ofList (escapeChars s.toList) ∧
    ((∀ e ∈ entities, e.2 ∉ s.toList) → escape s = s) := by
  refine ⟨escape_append s, fun c hc => ?_, fun rest h => ?_, unescape_escape s,
    fun t h => ?_, ?_, fun h => ?_⟩
  · simpa [isMarkup, and_assoc] using isMarkup_of_mem_escape hc
  · exact exists_entity_of_suffix (toList_escape s ▸ h)
  · exact Function.LeftInverse.injective unescape_escape h
  · rw [← toList_escape, String.ofList_toList]
  · refine escape_eq_self fun c hc => ?_
    rw [isSpecial_eq, Option.isSome_eq_false_iff, Option.isNone_iff_eq_none, entity?_eq_none_iff]
    rintro e he rfl
    exact h e he hc

/-- A text with a tag, an entity, and an ampersand that begins none. -/
theorem escape_faithful_of_entity_in_text :
    escape "<b>&lt; &" = "&lt;b&gt;&amp;lt; &amp;" ∧
      unescape "&lt;b&gt;&amp;lt; &amp;" = "<b>&lt; &" ∧
      '<' ∉ "&lt;b&gt;&amp;lt; &amp;".toList ∧
      ∃ e ∈ entities, e.1 <+: "&amp;lt; &amp;".toList := by
  have h : escape "<b>&lt; &" = "&lt;b&gt;&amp;lt; &amp;" := by decide
  obtain ⟨-, hmarkup, hamp, hback, -⟩ := escape_faithful "<b>&lt; &"
  rw [h] at hmarkup hamp hback
  refine ⟨h, hback, fun hlt => (hmarkup '<' hlt).1 rfl, ?_⟩
  exact hamp "amp;lt; &amp;".toList (by decide)

end Html

end Stencil
