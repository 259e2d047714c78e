import Stencil.Condition.Parse

/-!
# The steps of reading a condition

One equation for each token that a condition can go on with, and one for each that moves the
count of open parentheses. Where a condition ends is said by `Condition.read_end`.
-/

namespace Stencil

namespace Condition

variable (ending : Span) (levels : List Level) (level : Level) (span : Span)
    (ts : List (Spanned Token))

theorem read_name {t : Token} {name : String} (h : name? t = some name) :
    read ending levels level true (⟨t, span⟩ :: ts) =
      read ending levels (level.operand (.param name)) false ts := by
  rw [read, h]

theorem read_not :
    read ending levels level true (⟨.notOp, span⟩ :: ts) =
      read ending levels level.not true ts := by
  rw [read]
  rfl

theorem read_open :
    read ending levels level true (⟨.parenOpen, span⟩ :: ts) =
      read ending (level :: levels) .empty true ts := by
  rw [read]
  rfl

theorem read_and :
    read ending levels level false (⟨.andOp, span⟩ :: ts) = read ending levels level true ts := by
  cases levels <;> rw [read] <;> rfl

theorem read_or :
    read ending levels level false (⟨.orOp, span⟩ :: ts) =
      read ending levels level.disjunct true ts := by
  cases levels <;> rw [read] <;> rfl

theorem read_close (outer : Level) :
    read ending (outer :: levels) level false (⟨.parenClose, span⟩ :: ts) =
      read ending levels (outer.operand level.condition) false ts := by
  rw [read]
  rfl

theorem firstTooDeep_open {limit depth : Nat} (h : depth + 1 ≤ limit) :
    firstTooDeep limit depth (⟨.parenOpen, span⟩ :: ts) = firstTooDeep limit (depth + 1) ts := by
  rw [firstTooDeep, if_pos rfl, if_neg (by omega)]

theorem firstTooDeep_close (limit depth : Nat) :
    firstTooDeep limit (depth + 1) (⟨.parenClose, span⟩ :: ts) = firstTooDeep limit depth ts := by
  rw [firstTooDeep, if_neg (by simp), if_pos rfl, Nat.add_sub_cancel]

theorem firstTooDeep_other {t : Token} (h : t ≠ .parenOpen ∧ t ≠ .parenClose) (limit depth : Nat) :
    firstTooDeep limit depth (⟨t, span⟩ :: ts) = firstTooDeep limit depth ts := by
  rw [firstTooDeep, if_neg h.1, if_neg h.2]

end Condition

end Stencil
