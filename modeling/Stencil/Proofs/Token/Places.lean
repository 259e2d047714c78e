import Stencil.Proofs.Token.Concatenation

/-!
# Where tokens stand

The tokens of a template stand one behind the other, each on a range of the template that starts
and stops between two characters (`Token.Scans.spread`).
-/

namespace Stencil

/-! ### Ranges -/

/-- A byte offset between two characters of `source`, or at one of its ends. -/
def IsBoundary (source : List Char) (n : Nat) : Prop :=
  ∃ before, before <+: source ∧ Text.size before = n

theorem IsBoundary.le {source : List Char} {n : Nat} (h : IsBoundary source n) :
    n ≤ Text.size source := by
  obtain ⟨before, ⟨after, rfl⟩, rfl⟩ := h
  rw [Text.size_append]
  omega

/-- A range of `source`, in whole characters. -/
structure Span.IsRange (source : List Char) (s : Span) : Prop where
  /-- It starts at a boundary. -/
  start : IsBoundary source s.start
  /-- It stops at a boundary. -/
  stop : IsBoundary source s.stop
  /-- It does not stop before it starts. -/
  start_le : s.start ≤ s.stop

/-- A stretch of a text stands on a range. -/
theorem isRange_of_stretch {source before text : List Char} (h : before ++ text <+: source) :
    Span.IsRange source ⟨Text.size before, Text.size before + Text.size text⟩ where
  start := ⟨before, (List.prefix_append before text).trans h, rfl⟩
  stop := ⟨before ++ text, h, Text.size_append before text⟩
  start_le := Nat.le_add_right _ _

/-- Things that stand on ranges one behind the other, from `pos` on. -/
inductive Spread {α : Type} (source : List Char) : Nat → List (Spanned α) → Prop where
  /-- Nothing. -/
  | nil {pos : Nat} : Spread source pos []
  /-- One more thing in front of the others. -/
  | cons {pos : Nat} {x : Spanned α} {xs : List (Spanned α)} (hp : pos ≤ x.span.start)
      (hx : x.span.IsRange source) (h : Spread source x.span.stop xs) : Spread source pos (x :: xs)

namespace Spread

variable {α : Type} {source : List Char} {pos : Nat} {x : Spanned α} {xs ys : List (Spanned α)}

theorem mono {pos' : Nat} (h : Spread source pos xs) (hp : pos' ≤ pos) : Spread source pos' xs := by
  cases h with
  | nil => exact .nil
  | cons hx hr h => exact .cons (Nat.le_trans hp hx) hr h

theorem tail (h : Spread source pos (x :: xs)) : Spread source x.span.stop xs := by
  cases h with
  | cons _ _ h => exact h

theorem isRange_head (h : Spread source pos (x :: xs)) : x.span.IsRange source := by
  cases h with
  | cons _ hr _ => exact hr

theorem isRange_of_mem (h : Spread source pos xs) : ∀ x ∈ xs, x.span.IsRange source := by
  induction h with
  | nil => nofun
  | cons _ hr _ ih => exact List.forall_mem_cons.2 ⟨hr, ih⟩

theorem le_start_of_mem (h : Spread source pos xs) : ∀ x ∈ xs, pos ≤ x.span.start := by
  induction h with
  | nil => nofun
  | cons hp hr _ ih =>
    have hle := Nat.le_trans hp hr.start_le
    exact List.forall_mem_cons.2 ⟨hp, fun y hy => Nat.le_trans hle (ih y hy)⟩

theorem of_append (h : Spread source pos (xs ++ ys)) : Spread source pos ys := by
  induction xs generalizing pos with
  | nil => exact h
  | cons x xs ih =>
    cases h with
    | cons hp hr h => exact (ih h).mono (Nat.le_trans hp hr.start_le)

theorem prefix_of_append (h : Spread source pos (xs ++ ys)) : Spread source pos xs := by
  induction xs generalizing pos with
  | nil => exact .nil
  | cons x xs ih =>
    cases h with
    | cons hp hr h => exact .cons hp hr (ih h)

/-- What is further in front stops before the rest starts. -/
theorem stop_le_start (h : Spread source pos (xs ++ ys)) :
    ∀ x ∈ xs, ∀ y ∈ ys, x.span.stop ≤ y.span.start := by
  induction xs generalizing pos with
  | nil => nofun
  | cons x xs ih =>
    refine List.forall_mem_cons.2 ⟨fun y hy => ?_, ih h.tail⟩
    exact h.tail.le_start_of_mem y (List.mem_append_right xs hy)

theorem pairwise (h : Spread source pos xs) :
    xs.Pairwise fun x y => x.span.stop ≤ y.span.start := by
  induction h with
  | nil => exact .nil
  | cons _ _ h ih => exact .cons h.le_start_of_mem ih

end Spread

/-! ### Tokens -/

namespace Token

theorem spread_literal {source before text : List Char} {ts : List (Spanned Token)}
    (h : before ++ text <+: source)
    (ht : Spread source (Text.size before + Text.size text) ts) :
    Spread source (Text.size before) (literal (Text.size before) text ++ ts) := by
  unfold literal
  split
  · exact ht.mono (Nat.le_add_right _ _)
  · exact .cons (Nat.le_refl _) (isRange_of_stretch h) ht

/-- An opening marker after literal text stands on a range. -/
theorem isRange_openText {source before text rest : List Char} (k : Construct)
    (h : before ++ (text ++ k.openText ++ rest) = source) :
    Span.IsRange source ⟨Text.size before + Text.size text,
      Text.size before + Text.size text + Construct.markSize⟩ := by
  have hopen : before ++ text ++ k.openText <+: source :=
    ⟨rest, by rw [← h]; simp only [List.append_assoc]⟩
  have hr := isRange_of_stretch hopen
  rwa [size_openText, Text.size_append] at hr

/-- **The tokens of a template stand one behind the other.** -/
theorem Scans.spread {source before : List Char} {r : Region} {pos : Nat} {cs : List Char}
    {ts : List (Spanned Token)} (h : Scans r pos cs ts) (hc : before ++ cs = source)
    (hp : pos = Text.size before) : Spread source pos ts := by
  induction h generalizing before with
  | @rest pos cs hm =>
    subst hp
    rw [← List.append_nil (literal _ cs)]
    exact spread_literal ⟨[], by rw [List.append_nil, hc]⟩ .nil
  | @opening pos cs text rest k ts hm h ih =>
    obtain ⟨rfl, -, -⟩ := nextMarker_eq_some_iff.1 hm
    subst hp
    have htext : before ++ text <+: source :=
      ⟨k.openText ++ rest, by rw [← hc]; simp only [List.append_assoc]⟩
    refine spread_literal htext (.cons (Nat.le_refl _) (isRange_openText k hc) ?_)
    refine @ih (before ++ text ++ k.openText) ?_ ?_
    · rw [← hc]
      simp only [List.append_assoc]
    · simp only [Text.size_append, size_openText]
  | @blank k start pos c cs ts hb h ih =>
    subst hp
    refine (@ih (before ++ [c]) (by rw [← hc]; simp) ?_).mono (Nat.le_add_right _ _)
    simp
  | @inner k start pos t text rest ts ht he hk h ih =>
    subst hp
    have htext : before ++ text <+: source := ⟨rest, by rw [← hc, List.append_assoc]⟩
    refine .cons (Nat.le_refl _) (isRange_of_stretch htext) ?_
    exact ih (by rw [← hc, List.append_assoc]) (Text.size_append before text).symm
  | @closing k start pos rest ts h ih =>
    subst hp
    have hclose : before ++ k.closeText <+: source := ⟨rest, by rw [← hc, List.append_assoc]⟩
    have hr := isRange_of_stretch hclose
    rw [size_closeText] at hr
    refine .cons (Nat.le_refl _) hr (@ih (before ++ k.closeText) ?_ ?_)
    · rw [← hc, List.append_assoc]
    · rw [Text.size_append, size_closeText]

end Token

end Stencil
