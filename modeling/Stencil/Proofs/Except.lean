/-!
# Results of readers

A reader gives a value or an error. The lemmas here take the result of a sequence of readers
apart, and say when two sequences that read alike, step by step, give results that are alike
(`mapBoth_bind`), or results that are related (`BothGive.bind`).
-/

namespace Stencil

universe u

variable {ε ε' : Type u} {α β γ δ : Type u}

@[simp] theorem ok_bind (a : α) (k : α → Except ε β) : (Except.ok a >>= k) = k a := rfl

@[simp] theorem error_bind (e : ε) (k : α → Except ε β) : (Except.error e >>= k) = .error e := rfl

@[simp] theorem map_ok (f : α → β) (a : α) : (f <$> (Except.ok a : Except ε α)) = .ok (f a) := rfl

@[simp] theorem map_error (f : α → β) (e : ε) :
    (f <$> (Except.error e : Except ε α)) = .error e := rfl

@[simp] theorem pure_eq_ok (a : α) : (pure a : Except ε α) = .ok a := rfl

theorem bind_eq_ok_iff {x : Except ε α} {k : α → Except ε β} {b : β} :
    (x >>= k) = .ok b ↔ ∃ a, x = .ok a ∧ k a = .ok b := by
  cases x <;> simp

theorem map_eq_ok_iff {f : α → β} {x : Except ε α} {b : β} :
    f <$> x = .ok b ↔ ∃ a, x = .ok a ∧ f a = b := by
  cases x <;> simp

theorem bind_eq_error_iff {x : Except ε α} {k : α → Except ε β} {e : ε} :
    (x >>= k) = .error e ↔ x = .error e ∨ ∃ a, x = .ok a ∧ k a = .error e := by
  cases x <;> simp

theorem map_eq_error_iff {f : α → β} {x : Except ε α} {e : ε} :
    f <$> x = .error e ↔ x = .error e := by
  cases x <;> simp

theorem mapError_eq_ok_iff {f : ε → ε'} {x : Except ε α} {a : α} :
    x.mapError f = .ok a ↔ x = .ok a := by
  cases x <;> constructor <;> intro h <;> cases h <;> rfl

/-- The same result with another error and another value in it. -/
def mapBoth (f : ε → ε') (g : α → β) : Except ε α → Except ε' β
  | .error e => .error (f e)
  | .ok a => .ok (g a)

@[simp] theorem mapBoth_ok (f : ε → ε') (g : α → β) (a : α) : mapBoth f g (.ok a) = .ok (g a) := rfl

@[simp] theorem mapBoth_error (f : ε → ε') (g : α → β) (e : ε) :
    mapBoth f g (.error e : Except ε α) = .error (f e) := rfl

theorem mapBoth_eq_ok_iff {f : ε → ε'} {g : α → β} {x : Except ε α} {b : β} :
    mapBoth f g x = .ok b ↔ ∃ a, x = .ok a ∧ g a = b := by
  cases x <;> simp [mapBoth]

theorem mapBoth_map (f : ε → ε') (g : α → β) (h : δ → α) (x : Except ε δ) :
    mapBoth f g (h <$> x) = mapBoth f (fun a => g (h a)) x := by
  cases x <;> rfl

theorem map_mapBoth (f : ε → ε') (g : α → β) (h : β → γ) (x : Except ε α) :
    h <$> mapBoth f g x = mapBoth f (fun a => h (g a)) x := by
  cases x <;> rfl

/-- Two sequences are alike if their first steps are and what follows each value is. -/
theorem mapBoth_bind {f : ε → ε'} {g : α → β} {h : γ → δ} {k : α → Except ε γ}
    {k' : β → Except ε' δ} (x : Except ε α) (hk : ∀ a, x = .ok a → k' (g a) = mapBoth f h (k a)) :
    (mapBoth f g x >>= k') = mapBoth f h (x >>= k) := by
  cases x with
  | error e => rfl
  | ok a => exact hk a rfl

/-! ### Related results -/

/-- Both fail in the same way, or both give something, and these are related. -/
inductive BothGive (R : α → β → Prop) : Except ε α → Except ε β → Prop where
  /-- Both fail. -/
  | error (e : ε) : BothGive R (.error e) (.error e)
  /-- Both give something. -/
  | ok {a : α} {b : β} (h : R a b) : BothGive R (.ok a) (.ok b)

section

variable {R : α → β → Prop} {S : γ → δ → Prop} {x : Except ε α} {y : Except ε β}

theorem BothGive.bind {k : α → Except ε γ} {l : β → Except ε δ} (h : BothGive R x y)
    (hk : ∀ a b, R a b → BothGive S (k a) (l b)) : BothGive S (x >>= k) (y >>= l) := by
  cases h with
  | error e => exact .error e
  | ok h => exact hk _ _ h

theorem BothGive.mapError (h : BothGive R x y) (f : ε → ε') :
    BothGive R (x.mapError f) (y.mapError f) := by
  cases h with
  | error e => exact .error (f e)
  | ok h => exact .ok h

theorem bothGive_map_iff {f : α → γ} {g : β → δ} :
    BothGive S (f <$> x) (g <$> y) ↔ BothGive (fun a b => S (f a) (g b)) x y := by
  constructor
  · intro h
    cases x with
    | error e =>
      cases y with
      | error e' =>
        cases h
        exact .error e
      | ok b => cases h
    | ok a =>
      cases y with
      | error e => cases h
      | ok b =>
        cases h with
        | ok h => exact .ok h
  · intro h
    cases h with
    | error e => exact .error e
    | ok h => exact .ok h

end

end Stencil
