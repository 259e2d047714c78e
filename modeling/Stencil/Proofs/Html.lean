import Stencil.Html

/-!
# What escaping leaves

An escaped text has no character of HTML markup left in it (`markup_escape`). It is empty only if
the text was, and a text that had nothing to escape stays as it is (`escape_eq_self`).
-/

namespace Stencil

namespace Html

/-- A character that opens or closes a tag or the value of an attribute. -/
def isMarkup (c : Char) : Bool := c == '<' || c == '>' || c == '\x22' || c == '\x27'

/-- The markup characters of a text in their order, and nothing else of it. -/
def markup (s : String) : List Char := s.toList.filter isMarkup

@[simp] theorem markup_append (s t : String) : markup (s ++ t) = markup s ++ markup t := by
  simp [markup]

theorem filter_isMarkup_escapeChar (c : Char) : (escapeChar c).filter isMarkup = [] := by
  by_cases hamp : c = '&'
  · subst hamp; decide
  by_cases hlt : c = '<'
  · subst hlt; decide
  by_cases hgt : c = '>'
  · subst hgt; decide
  by_cases hquot : c = '\x22'
  · subst hquot; decide
  by_cases hapos : c = '\x27'
  · subst hapos; decide
  simp [escapeChar, entity?, isMarkup, hamp, hlt, hgt, hquot, hapos]

/-- **Nothing of an escaped text is markup.** -/
theorem markup_escape (s : String) : markup (escape s) = [] := by
  rw [markup, toList_escape, escapeChars, List.filter_flatMap]
  simp [filter_isMarkup_escapeChar]

theorem escapeChar_ne_nil (c : Char) : escapeChar c ≠ [] := by
  unfold escapeChar
  split <;> simp

theorem isEmpty_escape (s : String) : (escape s).isEmpty = s.isEmpty := by
  have h : (escape s).toList = [] ↔ s.toList = [] := by
    rw [toList_escape, escapeChars, List.flatMap_eq_nil_iff]
    constructor
    · intro h
      exact List.eq_nil_iff_forall_not_mem.2 fun c hc => escapeChar_ne_nil c (h c hc)
    · intro h
      simp [h]
  rw [Bool.eq_iff_iff, String.isEmpty_iff, String.isEmpty_iff]
  simpa using h

theorem escape_eq_self {s : String} (h : ∀ c ∈ s.toList, isSpecial c = false) : escape s = s := by
  rw [escape, if_neg]
  simpa using h

end Html

end Stencil
