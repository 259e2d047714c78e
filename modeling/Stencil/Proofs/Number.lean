import Stencil.Number

/-!
# Characters of numbers

The text of a number has only digits, signs, a point and the letter of an exponent in it
(`numeral_text`).
-/

namespace Stencil

namespace Number

/-- A character that stands in the text of a number. -/
def isNumeral (c : Char) : Bool := c.isDigit || c == '-' || c == '+' || c == '.' || c == 'e'

/-- A text that has only such characters. -/
def Numeral (cs : List Char) : Prop := ∀ c ∈ cs, isNumeral c = true

variable {a b : List Char}

theorem numeral_nil : Numeral [] := fun _ hc => nomatch hc

theorem numeral_cons_iff {c : Char} : Numeral (c :: a) ↔ isNumeral c = true ∧ Numeral a := by
  simp [Numeral]

theorem numeral_append_iff : Numeral (a ++ b) ↔ Numeral a ∧ Numeral b := by
  simp only [Numeral, List.mem_append]
  constructor
  · exact fun h => ⟨fun c hc => h c (.inl hc), fun c hc => h c (.inr hc)⟩
  · rintro ⟨ha, hb⟩ c (hc | hc)
    · exact ha c hc
    · exact hb c hc

theorem numeral_toString_nat (n : Nat) : Numeral (toString n).toList := by
  intro c hc
  rw [Nat.toString_eq_ofList_toDigits, String.toList_ofList] at hc
  have hdigit := Nat.isDigit_of_mem_toDigits (by decide) (by decide) hc
  simp [isNumeral, hdigit]

theorem numeral_toString_int (n : Int) : Numeral (toString n).toList := by
  cases n with
  | ofNat n => exact numeral_toString_nat n
  | negSucc n =>
    have h : (toString (Int.negSucc n)).toList = '-' :: (toString (n + 1)).toList := by
      simp [toString, Int.repr]
    rw [h, numeral_cons_iff]
    exact ⟨by decide, numeral_toString_nat (n + 1)⟩

theorem numeral_zeros (n : Nat) : Numeral (DecimalLayout.zeros n) := by
  intro c hc
  rw [List.eq_of_mem_replicate hc]
  decide

theorem numeral_positionalText (ha : Numeral a) (e : Int) :
    Numeral (DecimalLayout.positionalText a e) := by
  unfold DecimalLayout.positionalText
  dsimp only
  split
  · simp only [numeral_append_iff, numeral_cons_iff]
    exact ⟨⟨ha, numeral_zeros _⟩, by decide, by decide, numeral_nil⟩
  · split
    · rw [numeral_append_iff, numeral_cons_iff]
      exact ⟨fun c hc => ha c (List.mem_of_mem_take hc), by decide,
        fun c hc => ha c (List.mem_of_mem_drop hc)⟩
    · simp only [numeral_append_iff, numeral_cons_iff]
      exact ⟨⟨⟨by decide, by decide, numeral_nil⟩, numeral_zeros _⟩, ha⟩

theorem numeral_scientificText (ha : Numeral a) (lead : Int) :
    Numeral (DecimalLayout.scientificText a lead) := by
  have hexponent : Numeral ('e' :: (if 0 ≤ lead then '+' else '-') ::
      (toString lead.natAbs).toList) := by
    rw [numeral_cons_iff, numeral_cons_iff]
    refine ⟨by decide, ?_, numeral_toString_nat _⟩
    split <;> decide
  unfold DecimalLayout.scientificText
  split
  · simp only [numeral_cons_iff] at ha
    rw [numeral_append_iff, numeral_cons_iff, numeral_cons_iff, numeral_cons_iff]
    exact ⟨⟨ha.1, by decide, ha.2.1, ha.2.2⟩, hexponent⟩
  · exact numeral_append_iff.2 ⟨ha, hexponent⟩

/-- **The text of a number has only characters that numbers have.** -/
theorem numeral_text (n : Number) : Numeral n.text.toList := by
  cases n with
  | int n => exact numeral_toString_int n
  | float x =>
    have hdigits := numeral_toString_nat (Decimal.shortest x).digits
    simp only [text, DecimalLayout.text, layout, String.toList_ofList]
    split
    · rw [numeral_cons_iff]
      refine ⟨by decide, ?_⟩
      split
      · exact numeral_positionalText hdigits _
      · exact numeral_scientificText hdigits _
    · split
      · exact numeral_positionalText hdigits _
      · exact numeral_scientificText hdigits _

end Number

end Stencil
