import Stencil.Token.Scan

/-!
# Opening and closing markers

Literal text runs to the first opening marker, and a marker is two characters, so putting two
texts together makes a marker only across the seam: the first text would have to end in `[`
and the second to begin with `[` or `%`. Where that is not so (`Seam`), the markers of the two
texts are those of the one (`nextMarker_append`).
-/

namespace Stencil

/-- The two characters that open the construct. -/
def Construct.openText : Construct → List Char
  | directive => ['[', '%']
  | interpolation => ['[', '[']

/-- The two characters that close the construct, as a text. -/
def Construct.closeText (k : Construct) : List Char := [k.closeMark.1, k.closeMark.2]

/-- No opening marker arises where the text `b` is put after the text `a`. -/
def Seam (a b : List Char) : Prop :=
  ¬ (a.getLast? = some '[' ∧ (b.head? = some '[' ∨ b.head? = some '%'))

theorem seam_nil_left (b : List Char) : Seam [] b := by
  simp [Seam]

/-- What holds at the end of a text holds at the end of what is left of it. -/
theorem Seam.of_append {a₁ a₂ b : List Char} (h : Seam (a₁ ++ a₂) b) : Seam a₂ b := by
  rintro ⟨ha, hb⟩
  refine h ⟨?_, hb⟩
  rw [List.getLast?_append, ha]
  rfl

/-- Only the first character of the second text matters. -/
theorem Seam.congr_right {a b b' : List Char} (h : Seam a b) (hb : b'.head? = b.head?) :
    Seam a b' := by
  rw [Seam, hb]
  exact h

theorem nextMarker_cons {c : Char} {cs : List Char} (h : Seam [c] cs) :
    nextMarker (c :: cs) = (nextMarker cs).map fun (before, k, rest) => (c :: before, k, rest) := by
  rw [nextMarker]
  · rintro ds rfl rfl
    exact h ⟨rfl, .inr rfl⟩
  · rintro ds rfl rfl
    exact h ⟨rfl, .inl rfl⟩

theorem seam_singleton {c : Char} {cs : List Char} (h₁ : ∀ ds, c = '[' → cs = '[' :: ds → False)
    (h₂ : ∀ ds, c = '[' → cs = '%' :: ds → False) : Seam [c] cs := by
  rintro ⟨hc, hd⟩
  have hc : c = '[' := by simpa using hc
  cases cs with
  | nil => simp at hd
  | cons d ds =>
    simp only [List.head?_cons, Option.some.injEq] at hd
    obtain rfl | rfl := hd
    · exact h₁ ds hc rfl
    · exact h₂ ds hc rfl

/-- A text with no marker in it begins with none. -/
theorem seam_of_nextMarker_cons_eq_none {c : Char} {cs : List Char}
    (h : nextMarker (c :: cs) = none) : Seam [c] cs := by
  refine seam_singleton ?_ ?_
  all_goals
    rintro ds rfl rfl
    simp [nextMarker] at h

theorem nextMarker_of_cons_eq_none {c : Char} {cs : List Char} (h : nextMarker (c :: cs) = none) :
    nextMarker cs = none := by
  rw [nextMarker_cons (seam_of_nextMarker_cons_eq_none h)] at h
  simpa using h

theorem nextMarker_append {a b : List Char} (ha : nextMarker a = none) (h : Seam a b) :
    nextMarker (a ++ b) = (nextMarker b).map fun (before, k, rest) => (a ++ before, k, rest) := by
  induction a with
  | nil => simp
  | cons c cs ih =>
    have hc : Seam [c] (cs ++ b) := by
      cases cs with
      | nil => exact h
      | cons d ds => exact (seam_of_nextMarker_cons_eq_none ha).congr_right rfl
    have hs : Seam ([c] ++ cs) b := h
    rw [List.cons_append, nextMarker_cons hc, ih (nextMarker_of_cons_eq_none ha) hs.of_append,
      Option.map_map]
    rfl

theorem head?_append_openText (before : List Char) (k : Construct) (rest : List Char) :
    (before ++ k.openText).head? = (before ++ k.openText ++ rest).head? := by
  cases before with
  | nil => cases k <;> rfl
  | cons c cs => rfl

/-- The first opening marker, with the text before it, in which there is none. -/
theorem nextMarker_eq_some_iff {cs before rest : List Char} {k : Construct} :
    nextMarker cs = some (before, k, rest) ↔
      cs = before ++ k.openText ++ rest ∧ nextMarker before = none ∧ Seam before k.openText := by
  constructor
  · intro h
    fun_induction nextMarker cs generalizing before with
    | case1 => simp at h
    | case2 cs | case3 cs =>
      simp only [Option.some.injEq, Prod.mk.injEq] at h
      obtain ⟨rfl, rfl, rfl⟩ := h
      exact ⟨rfl, rfl, seam_nil_left _⟩
    | case4 c cs h1 h2 ih =>
      obtain ⟨⟨b, k', r⟩, hm, he⟩ := Option.map_eq_some_iff.1 h
      simp only [Prod.mk.injEq] at he
      obtain ⟨rfl, rfl, rfl⟩ := he
      obtain ⟨rfl, hb, hs⟩ := ih hm
      -- the two characters `c` and what follows it make no marker
      have hc : Seam [c] (b ++ k'.openText) :=
        (seam_singleton h2 h1).congr_right (head?_append_openText b k' r)
      cases b with
      | nil =>
        refine ⟨rfl, ?_, hc⟩
        rw [nextMarker_cons (by simp [Seam]), hb]
        rfl
      | cons d ds =>
        refine ⟨rfl, ?_, ?_⟩
        · have hd : Seam [c] (d :: ds) := hc.congr_right rfl
          rw [nextMarker_cons hd, hb]
          rfl
        · simpa [Seam] using hs
  · rintro ⟨rfl, hb, hs⟩
    have : nextMarker (k.openText ++ rest) = some ([], k, rest) := by cases k <;> rfl
    rw [List.append_assoc, nextMarker_append hb (hs.congr_right (by cases k <;> rfl)), this]
    simp

/-- Text has no opening marker exactly if neither of the two occurs in it. -/
theorem nextMarker_eq_none_iff {cs : List Char} :
    nextMarker cs = none ↔ ∀ k : Construct, ¬ k.openText <:+: cs := by
  constructor
  · rintro h k ⟨a, b, rfl⟩
    induction a with
    | nil => cases k <;> simp [Construct.openText, nextMarker] at h
    | cons c cs ih => exact ih (nextMarker_of_cons_eq_none h)
  · intro h
    cases hm : nextMarker cs with
    | none => rfl
    | some m =>
      obtain ⟨before, k, rest⟩ := m
      exact absurd ⟨before, rest, (nextMarker_eq_some_iff.1 hm).1.symm⟩ (h k)

/-! ### Closing markers -/

theorem occurs_append_left {m : Char × Char} {a b : List Char} (h : occurs m a) :
    occurs m (a ++ b) := by
  fun_induction occurs m a with
  | case1 x y cs ih =>
    simp only [List.cons_append, occurs, Bool.or_eq_true] at h ⊢
    exact h.imp id ih
  | case2 => simp at h

theorem occurs_append_right {m : Char × Char} (a : List Char) {b : List Char} (h : occurs m b) :
    occurs m (a ++ b) := by
  induction a with
  | nil => exact h
  | cons c cs ih =>
    cases hb : cs ++ b with
    | nil => simp [hb, occurs] at ih
    | cons d ds =>
      rw [List.cons_append, hb, occurs, ← hb, ih, Bool.or_true]

theorem occurs_closeText (k : Construct) (rest : List Char) :
    occurs k.closeMark (k.closeText ++ rest) := by
  simp [Construct.closeText, occurs]

end Stencil
