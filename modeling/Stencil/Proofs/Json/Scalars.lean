import Stencil.Json.Reader
import Stencil.Proofs.Except

/-!
# Strings and numbers are read back

What is printed for a string or an integer is read back as it was, whatever stands behind it. Behind
the closing quote of a string that is anything. A number has no end of its own, so behind an integer
there must be nothing that would go on with it (`Json.EndsNumber`). An integer is read back if it is
one of 64 bits, signed or not; others become floating point numbers.
-/

namespace Stencil

namespace Json

/-- The reader gives the value `a` and leaves `rest`. -/
def Gives {α : Type} {n : Nat} (x : Except Failure (Parsed α n)) (a : α) (rest : List Char) : Prop :=
  ∃ h : rest.length < n, x = .ok ⟨a, rest, h⟩

theorem Gives.map_widen {α β : Type} {n m : Nat} {x : Except Failure (Parsed α n)} {a : α}
    {rest : List Char} (h : Gives x a rest) (f : α → β) (hn : n ≤ m) :
    Gives (x.map fun p => (p.map f).widen hn) (f a) rest := by
  obtain ⟨hlt, rfl⟩ := h
  exact ⟨Nat.lt_of_lt_of_le hlt hn, rfl⟩

theorem Gives.widen {α : Type} {n m : Nat} {x : Except Failure (Parsed α n)} {a : α}
    {rest : List Char} (h : Gives x a rest) (hn : n ≤ m) : Gives (x.map (·.widen hn)) a rest := by
  obtain ⟨hlt, rfl⟩ := h
  exact ⟨Nat.lt_of_lt_of_le hlt hn, rfl⟩

/-! ### Strings -/

theorem hexUnit_append {digits : List Char} {n : Nat} (hlength : digits.length = 4)
    (hsize : Text.size digits = 4) (h : hexUnit? digits = some n) (rest : List Char) :
    Gives (hexUnit (digits ++ rest)) n rest := by
  have htake : (digits ++ rest).take 4 = digits := by rw [← hlength, List.take_left]
  have hdrop : (digits ++ rest).drop 4 = rest := by rw [← hlength, List.drop_left]
  refine ⟨by rw [List.length_append]; omega, ?_⟩
  simp only [hexUnit, htake, hsize, h, hdrop, Nat.lt_irrefl, if_false]

/-- The digits that are printed for a control character. -/
def controlDigits (n : Nat) : List Char := ['0', '0', hexDigit (n / 16), hexDigit (n % 16)]

theorem hexUnit?_controlDigits : ∀ n < 32, hexUnit? (controlDigits n) = some n := by decide

theorem size_controlDigits : ∀ n < 32, Text.size (controlDigits n) = 4 := by decide

theorem unicodeEscape_control {c : Char} (hc : c.toNat < 32) (rest : List Char) :
    Gives (unicodeEscape (controlDigits c.toNat ++ rest)) c rest := by
  obtain ⟨hlt, h⟩ := hexUnit_append rfl (size_controlDigits _ hc) (hexUnit?_controlDigits _ hc) rest
  refine ⟨hlt, ?_⟩
  rw [unicodeEscape, h, ok_bind, if_neg (by dsimp only; omega), if_neg (by dsimp only; omega)]
  rw [Parsed.map, Char.ofNat_toNat]
  rfl

theorem escaped_simple {e c : Char} (h : simpleEscape? e = some c) (rest : List Char) :
    Gives (escaped ([e] ++ rest)) c rest := by
  rw [List.singleton_append]
  refine ⟨length_lt_cons_succ e rest, ?_⟩
  rw [escaped]
  split
  · next h' =>
    obtain rfl := Option.some.inj (h.symm.trans h')
    rfl
  · next h' =>
    rw [h] at h'
    cases h'

theorem escaped_control {c : Char} (hc : c.toNat < 32) (rest : List Char) :
    Gives (escaped ('u' :: controlDigits c.toNat ++ rest)) c rest :=
  (unicodeEscape_control hc rest).widen _

/-- What is printed for a character is an escape of it, or the character itself where it needs
none. -/
theorem escape_cases (c : Char) :
    (∃ text, escape c = '\\' :: text ∧ ∀ rest, Gives (escaped (text ++ rest)) c rest) ∨
      escape c = [c] ∧ c ≠ '\x22' ∧ c ≠ '\\' ∧ ¬ c.toNat < 32 := by
  have hsimple {e : Char} (d : Char) (hd : c.toNat = d.toNat) (he : simpleEscape? e = some d) :
      ∃ text, ['\\', e] = '\\' :: text ∧ ∀ rest, Gives (escaped (text ++ rest)) c rest :=
    ⟨[e], rfl, Char.toNat_inj.1 hd ▸ escaped_simple he⟩
  unfold escape
  split
  · next h => exact .inl (hsimple '\x22' (congrArg _ h) rfl)
  · next hquote =>
  split
  · next h => exact .inl (hsimple '\\' (congrArg _ h) rfl)
  · next hslash =>
  split
  · next h => exact .inl (hsimple '\x08' h rfl)
  split
  · next h => exact .inl (hsimple '\t' h rfl)
  split
  · next h => exact .inl (hsimple '\n' h rfl)
  split
  · next h => exact .inl (hsimple '\x0c' h rfl)
  split
  · next h => exact .inl (hsimple '\r' h rfl)
  split
  · next h => exact .inl ⟨_, rfl, escaped_control h⟩
  · next h => exact .inr ⟨rfl, hquote, hslash, h⟩

/-- **A string is read back.** -/
theorem stringChars_escape (cs rest : List Char) :
    Gives (stringChars (cs.flatMap escape ++ '\x22' :: rest)) cs rest := by
  induction cs with
  | nil =>
    rw [List.flatMap_nil, List.nil_append]
    refine ⟨length_lt_cons_succ _ rest, ?_⟩
    rw [stringChars, if_pos rfl]
  | cons c cs ih =>
    obtain ⟨hlt, ih⟩ := ih
    rw [List.flatMap_cons, List.append_assoc]
    obtain ⟨text, htext, hgives⟩ | ⟨htext, hquote, hslash, hcontrol⟩ := escape_cases c
    · obtain ⟨hle, hgives⟩ := hgives (cs.flatMap escape ++ '\x22' :: rest)
      rw [htext, List.cons_append]
      refine ⟨Nat.lt_succ_of_lt (by rw [List.length_cons]; omega), ?_⟩
      rw [stringChars, if_neg (by decide), if_pos rfl, hgives, ok_bind, ih]
      rfl
    · rw [htext, List.singleton_append]
      refine ⟨Nat.lt_succ_of_lt hlt, ?_⟩
      rw [stringChars, if_neg hquote, if_neg hslash, if_neg hcontrol, ih]
      rfl

/-! ### Integers -/

/-- Nothing of the text goes on with a number. -/
def EndsNumber (cs : List Char) : Prop :=
  ∀ c ∈ cs.head?, ¬ c.isDigit ∧ c ≠ '.' ∧ c ≠ 'e' ∧ c ≠ 'E'

theorem endsNumber_nil : EndsNumber [] := nofun

theorem endsNumber_cons {c : Char} (cs : List Char)
    (h : ¬ c.isDigit ∧ c ≠ '.' ∧ c ≠ 'e' ∧ c ≠ 'E') : EndsNumber (c :: cs) := by
  rintro _ ⟨⟩
  exact h

theorem EndsNumber.digits_append {rest ds : List Char} (h : EndsNumber rest)
    (hds : ∀ d ∈ ds, d.isDigit) : digits (ds ++ rest) = ds ∧ afterDigits (ds ++ rest) = rest := by
  have hrest : rest.takeWhile Char.isDigit = [] ∧ rest.dropWhile Char.isDigit = rest := by
    cases rest with
    | nil => exact ⟨rfl, rfl⟩
    | cons c rest =>
      have hc := (h c rfl).1
      exact ⟨List.takeWhile_cons_of_neg hc, List.dropWhile_cons_of_neg hc⟩
  rw [digits, afterDigits, List.takeWhile_append_of_pos hds, List.dropWhile_append_of_pos hds,
    hrest.1, hrest.2, List.append_nil]
  exact ⟨rfl, rfl⟩

theorem le_ofDigitChars (ds : List Char) (n : Nat) : n ≤ Nat.ofDigitChars 10 ds n := by
  induction ds generalizing n with
  | nil => exact Nat.le_refl _
  | cons d ds ih =>
    rw [Nat.ofDigitChars_cons]
    have hle := ih (10 * n + (d.toNat - '0'.toNat))
    omega

/-- Digits that stay within the bound are all taken. -/
theorem gather_eq {bound : Nat} (ds : List Char) (n : Nat)
    (h : Nat.ofDigitChars 10 ds n ≤ bound) :
    gather bound n ds = (Nat.ofDigitChars 10 ds n, []) := by
  induction ds generalizing n with
  | nil => rfl
  | cons d ds ih =>
    have hstep : n * 10 + digitValue d = 10 * n + (d.toNat - '0'.toNat) := by
      rw [Nat.mul_comm]
      rfl
    rw [Nat.ofDigitChars_cons, ← hstep] at h ⊢
    have hle := le_ofDigitChars ds (n * 10 + digitValue d)
    rw [gather, if_neg (by omega), ih _ h]

theorem afterWhole_of_endsNumber {rest : List Char} (h : EndsNumber rest) (negative : Bool)
    (n : Nat) : Gives (afterWhole negative n 0 rest) (.ofWhole negative n) rest := by
  refine ⟨Nat.lt_succ_self _, ?_⟩
  unfold afterWhole
  split
  · exact absurd rfl (h _ rfl).2.1
  · exact absurd rfl (h _ rfl).2.2.1
  · exact absurd rfl (h _ rfl).2.2.2
  · rfl

/-- The digits of a number begin with a zero only if it is zero. -/
theorem exists_toDigits {n : Nat} (hn : n ≠ 0) :
    ∃ d ds, Nat.toDigits 10 n = d :: ds ∧ d ≠ '0' := by
  induction n using Nat.strongRecOn with
  | ind n ih =>
    obtain hlt | hle := Nat.lt_or_ge n 10
    · refine ⟨n.digitChar, [], Nat.toDigits_of_lt_base hlt, ?_⟩
      have hdigit : ∀ m < 10, m ≠ 0 → m.digitChar ≠ '0' := by decide
      exact hdigit n hlt hn
    · obtain ⟨d, ds, hds, hd⟩ := ih (n / 10) (by omega) (by omega)
      rw [Nat.toDigits_of_base_le (by decide) hle, hds]
      exact ⟨d, ds ++ [(n % 10).digitChar], rfl, hd⟩

theorem wholeNumber_toDigits {rest : List Char} (h : EndsNumber rest) (negative : Bool) {n : Nat}
    (hn : n ≤ Number.maxWord) :
    Gives (wholeNumber negative (Nat.toDigits 10 n ++ rest)) (.ofWhole negative n) rest := by
  obtain rfl | hpos := Nat.eq_zero_or_pos n
  · have hzero : Nat.toDigits 10 0 = ['0'] := by decide
    have hhead : ¬ rest.head?.any Char.isDigit = true := by
      cases rest with
      | nil => exact Bool.false_ne_true
      | cons c rest => exact (h c rfl).1
    rw [hzero, List.singleton_append, wholeNumber, if_pos rfl, if_neg hhead]
    exact afterWhole_of_endsNumber h negative 0
  · obtain ⟨d, ds, hds, hd⟩ := exists_toDigits (Nat.ne_of_gt hpos)
    have hall : ∀ c ∈ d :: ds, c.isDigit := fun c hc =>
      Nat.isDigit_of_mem_toDigits (by decide) (by decide) (hds ▸ hc)
    obtain ⟨hdigit, hrest⟩ := List.forall_mem_cons.1 hall
    obtain ⟨hdigits, hafter⟩ := h.digits_append hrest
    have hvalue : Nat.ofDigitChars 10 (d :: ds) 0 = n := by
      rw [← hds, Nat.ofDigitChars_ten_toDigits]
    have hwhole : Gives (afterWhole negative n 0 (afterDigits (ds ++ rest)))
        (.ofWhole negative n) rest := by
      rw [hafter]
      exact afterWhole_of_endsNumber h negative n
    rw [hds, List.cons_append, wholeNumber, if_neg hd, if_pos hdigit, hdigits,
      gather_eq (d :: ds) 0 (by rwa [hvalue]), hvalue]
    exact hwhole.widen _

end Json

end Stencil
