import Stencil.Html

/-!
# Output modes

The mode of a render decides how the value of a parameter is inserted. Only the HTML mode
changes a value; literal text is never changed. Each mode is a row of one table, which gives
its name and what it does to a value; a name that is in no row means the last mode.
-/

namespace Stencil

/-- What a render writes. -/
inductive Mode where
  /-- HTML: values are escaped. -/
  | html
  /-- CSS: values are inserted as they are. -/
  | css
  /-- XQuery: values are inserted as they are. -/
  | xquery
  /-- XML and everything else: values are inserted as they are. -/
  | xml
  deriving DecidableEq, Repr

namespace Mode

/-- A row of the table of modes. -/
structure Policy where
  /-- The mode. -/
  mode : Mode
  /-- Its name. -/
  name : String
  /-- What it does to a value. -/
  substitute : String → String

/-- The table of modes. -/
def policies : List Policy :=
  [⟨html, "html", Html.escape⟩, ⟨css, "css", id⟩, ⟨xquery, "xquery", id⟩, ⟨xml, "xml", id⟩]

/-- The row of a mode. -/
def row : Mode → Fin policies.length
  | html => ⟨0, by decide⟩
  | css => ⟨1, by decide⟩
  | xquery => ⟨2, by decide⟩
  | xml => ⟨3, by decide⟩

/-- The policy of a mode. -/
def policy (m : Mode) : Policy := policies[m.row]

/-- The name of a mode. -/
def name (m : Mode) : String := m.policy.name

/-- The text inserted for a value. -/
def substitute (m : Mode) (value : String) : String := m.policy.substitute value

/-- A capital letter of ASCII becomes small. -/
def lower (c : Char) : Char := if 'A' ≤ c ∧ c ≤ 'Z' then Char.ofNat (c.toNat + 32) else c

/-- Whether two names differ at most in the case of letters of ASCII. -/
def sameName (a b : String) : Bool := a.toList.map lower == b.toList.map lower

/-- The mode of a name. -/
def ofName (name : String) : Mode :=
  ((policies.find? fun p => sameName p.name name).map Policy.mode).getD xml

/-- The mode of a name that may be missing. -/
def ofName? (name : Option String) : Mode := (name.map ofName).getD xml

/-- Outside HTML a value is inserted as it is. -/
theorem substitute_of_ne_html {m : Mode} (h : m ≠ html) (value : String) :
    m.substitute value = value := by
  cases m with
  | html => exact absurd rfl h
  | css | xquery | xml => rfl

/-- In HTML a value is escaped. -/
theorem substitute_html (value : String) : html.substitute value = Html.escape value := rfl

end Mode

end Stencil
