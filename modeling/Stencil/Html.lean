/-!
# Escaping for HTML

The five characters that mean something in HTML markup are written as entities, so that
an inserted value can neither open nor close a tag or an attribute. All other characters
are kept as they are.
-/

namespace Stencil

namespace Html

/-- The entity of a character, without its ampersand, for the five that have one. -/
def entity? (c : Char) : Option (List Char) :=
  if c = '&' then some "amp;".toList
  else if c = '<' then some "lt;".toList
  else if c = '>' then some "gt;".toList
  else if c = '\x22' then some "quot;".toList
  else if c = '\x27' then some "#39;".toList
  else none

/-- The characters that mean something in markup. -/
def specials : List Char := ['&', '<', '>', '\x22', '\x27']

/-- Whether a character means something in markup. -/
def isSpecial (c : Char) : Bool := specials.contains c

/-- The characters that mean something are those that have an entity. -/
theorem isSpecial_eq (c : Char) : isSpecial c = (entity? c).isSome := by
  unfold isSpecial entity?
  repeat' split
  all_goals simp_all [specials]

/-- How one character is written. -/
def escapeChar (c : Char) : List Char :=
  match entity? c with
  | some name => '&' :: name
  | none => [c]

/-- How a text is written. -/
def escapeChars (cs : List Char) : List Char := cs.flatMap escapeChar

/-- A text with its special characters written as entities; a text that has none is kept as
it is. -/
def escape (s : String) : String :=
  if s.toList.any isSpecial then String.ofList (escapeChars s.toList) else s

/-- What is written for two texts one after the other is what is written for each. -/
theorem escapeChars_append (a b : List Char) :
    escapeChars (a ++ b) = escapeChars a ++ escapeChars b := by
  simp [escapeChars]

/-- A text with no special character is written as it is. -/
theorem escapeChars_eq_self {cs : List Char} (h : cs.any isSpecial = false) :
    escapeChars cs = cs := by
  induction cs with
  | nil => rfl
  | cons c cs ih =>
    simp only [List.any_cons, Bool.or_eq_false_iff] at h
    have hc : entity? c = none := by simpa [isSpecial_eq] using h.1
    have := ih h.2
    simp only [escapeChars] at this ⊢
    simp [escapeChar, hc, this]

/-- Escaping writes the characters one by one, whether or not any of them is special. -/
theorem toList_escape (s : String) : (escape s).toList = escapeChars s.toList := by
  unfold escape
  split
  · simp
  · next h => exact (escapeChars_eq_self (by simpa using h)).symm

end Html

end Stencil
