import Stencil.Document
import Stencil.Item

/-!
# Welding two lists

Where two templates are put together, literal text at the end of the first and at the
beginning of the second is one text. `weld` puts two lists together in this way: if the last
element of the first and the first element of the second are both literal text they become
one, and all others stay as they are. Tokens, items and nodes are welded alike.
-/

namespace Stencil

/-- Things of which some are literal text. -/
class Literal (α : Type) where
  /-- The text and the span of a thing that is literal text. -/
  text? : α → Option (String × Span)
  /-- The literal text at a span. -/
  ofText : String → Span → α

open Literal

instance : Literal (Spanned Token) where
  text?
    | ⟨.text s, span⟩ => some (s, span)
    | _ => none
  ofText s span := ⟨.text s, span⟩

instance : Literal (Spanned Item) where
  text?
    | ⟨.text s, span⟩ => some (s, span)
    | _ => none
  ofText s span := ⟨.text s, span⟩

instance : Literal Node where
  text?
    | .literal s span => some (s, span)
    | _ => none
  ofText := .literal

variable {α : Type} [Literal α]

/-- Two literal texts as one, from the start of the first to the end of the second. -/
def merge? (x y : α) : Option α :=
  match text? x, text? y with
  | some (a, s), some (b, t) => some (ofText (a ++ b) ⟨s.start, t.stop⟩)
  | _, _ => none

/-- Two lists one after the other, the last element of the first and the first element of the
second made one if both are literal text. -/
def weld : List α → List α → List α
  | [], ys => ys
  | [x], y :: ys =>
    match merge? x y with
    | some z => z :: ys
    | none => x :: y :: ys
  | x :: xs, ys => x :: weld xs ys

@[simp] theorem weld_nil_left (ys : List α) : weld [] ys = ys := rfl

@[simp] theorem weld_nil_right (xs : List α) : weld xs [] = xs := by
  induction xs with
  | nil => rfl
  | cons x xs ih => simp [weld, ih]

theorem weld_singleton {x y : α} {a b : String} {s t : Span} (hx : text? x = some (a, s))
    (hy : text? y = some (b, t)) (ys : List α) :
    weld [x] (y :: ys) = ofText (a ++ b) ⟨s.start, t.stop⟩ :: ys := by
  simp [weld, merge?, hx, hy]

theorem weld_cons_of_ne_nil {xs : List α} (h : xs ≠ []) (x : α) (ys : List α) :
    weld (x :: xs) ys = x :: weld xs ys := by
  cases xs with
  | nil => exact absurd rfl h
  | cons x' xs => simp [weld]

/-- What is no literal text stays as it is. -/
theorem weld_cons {x : α} (h : text? x = none) (xs ys : List α) :
    weld (x :: xs) ys = x :: weld xs ys := by
  cases xs with
  | cons x' xs => exact weld_cons_of_ne_nil (by simp) x ys
  | nil =>
    cases ys with
    | nil => simp
    | cons y ys => simp [weld, merge?, h]

/-- Before a list that begins with no literal text all stay as they are. -/
theorem weld_of_head? {ys : List α} (h : ∀ y ∈ ys.head?, text? y = none) (xs : List α) :
    weld xs ys = xs ++ ys := by
  induction xs with
  | nil => rfl
  | cons x xs ih =>
    cases xs with
    | cons x' xs => rw [weld_cons_of_ne_nil (by simp), ih]; rfl
    | nil =>
      cases ys with
      | nil => simp
      | cons y ys =>
        have hy : text? y = none := h y rfl
        simp [weld, merge?, hy]

theorem weld_append {ys : List α} (h : ys ≠ []) (xs zs : List α) :
    weld (xs ++ ys) zs = xs ++ weld ys zs := by
  induction xs with
  | nil => rfl
  | cons x xs ih => rw [List.cons_append, weld_cons_of_ne_nil (by simp [h]), ih, List.cons_append]

theorem text?_token_eq_none {t : Spanned Token} (h : ∀ s, t.node ≠ .text s) : text? t = none := by
  obtain ⟨t, span⟩ := t
  cases t with
  | text s => exact absurd rfl (h s)
  | _ => rfl

end Stencil
