import Stencil.Proofs.Condition.Steps
import Stencil.Proofs.Printing.Condition

/-!
# The height of a condition

However long a condition is, what is read from it is a tree that is only as high as its
parentheses are deep. Nothing else makes it higher: runs of `and` and of `or` make one node each,
and `not`s pair off (`Level.Fits`). So `limit` parentheses around an operand make at most
`3 * limit` nodes above it, and there are four more where none is open (`within_of_parse`).

What is read is also formed: its names are names, and only two or more operands are joined.
-/

namespace Stencil

namespace Condition

/-! ### Height -/

mutual

/-- The number of nodes on the longest path from a condition to a parameter in it. -/
def height : Condition → Nat
  | param _ => 1
  | not c => height c + 1
  | and cs => heightAll cs + 1
  | or cs => heightAll cs + 1

/-- The height of the highest of several conditions. -/
def heightAll : List Condition → Nat
  | [] => 0
  | c :: cs => max (height c) (heightAll cs)

end

theorem heightAll_le_iff {h : Nat} {cs : List Condition} :
    heightAll cs ≤ h ↔ ∀ c ∈ cs, c.height ≤ h := by
  induction cs with
  | nil => simp [heightAll]
  | cons c cs ih => rw [heightAll, Nat.max_le, ih, List.forall_mem_cons]

/-- A condition that a template can stand for, at most `h` high. -/
structure Within (h : Nat) (c : Condition) : Prop where
  /-- A template can stand for it. -/
  formed : c.Formed
  /-- It is at most `h` high. -/
  height_le : c.height ≤ h

theorem Within.mono {h k : Nat} {c : Condition} (hc : c.Within h) (hk : h ≤ k) : c.Within k :=
  ⟨hc.formed, Nat.le_trans hc.height_le hk⟩

theorem within_param {name : String} (hn : IsName name) (h : Nat) :
    (param name).Within (h + 1) := by
  refine ⟨.param hn, ?_⟩
  rw [height]
  omega

/-- A run of `not`s is one node. -/
theorem Within.negate {h : Nat} {c : Condition} (hc : c.Within h) (odd : Bool) :
    (negate odd c).Within (h + 1) := by
  cases odd with
  | false => exact hc.mono (Nat.le_succ h)
  | true =>
    refine ⟨.not hc.formed, ?_⟩
    rw [Condition.negate, if_pos rfl, height]
    exact Nat.succ_le_succ hc.height_le

/-- A run of operands is one node, if joining them makes one. -/
theorem within_combine {join : List Condition → Condition} {h : Nat} {cs : List Condition}
    (hj : 2 ≤ cs.length → (join cs).Formed) (hh : height (join cs) = heightAll cs + 1)
    (hne : cs ≠ []) (hcs : ∀ c ∈ cs, c.Within h) : (combine join cs).Within (h + 1) := by
  match cs with
  | [c] => exact (hcs c List.mem_cons_self).mono (Nat.le_succ h)
  | c :: d :: cs =>
    refine ⟨hj (by simp), ?_⟩
    rw [combine_of_length (by simp), hh]
    exact Nat.succ_le_succ (heightAll_le_iff.2 fun c hc => (hcs c hc).height_le)

/-! ### Levels -/

/-- What was read at a level whose operands, before any `not`, are at most `h` high. -/
structure Level.Fits (h : Nat) (l : Level) : Prop where
  /-- The operands of `and` may have a `not`. -/
  conjuncts : ∀ c ∈ l.conjuncts, c.Within (h + 1)
  /-- The operands of `or` may have an `and`. -/
  disjuncts : ∀ c ∈ l.disjuncts, c.Within (h + 2)

namespace Level.Fits

variable {h : Nat} {l : Level}

theorem empty : Level.empty.Fits h := ⟨by simp [Level.empty], by simp [Level.empty]⟩

theorem not (hl : l.Fits h) : l.not.Fits h := ⟨hl.conjuncts, hl.disjuncts⟩

theorem operand (hl : l.Fits h) {c : Condition} (hc : c.Within h) : (l.operand c).Fits h := by
  refine ⟨fun d hd => ?_, hl.disjuncts⟩
  obtain rfl | hd := List.mem_cons.1 hd
  · exact hc.negate l.negated
  · exact hl.conjuncts d hd

theorem disjunct (hl : l.Fits h) (hne : l.conjuncts ≠ []) : l.disjunct.Fits h := by
  refine ⟨by simp [Level.disjunct], fun d hd => ?_⟩
  obtain rfl | hd := List.mem_cons.1 hd
  · have hc : ∀ c ∈ l.conjuncts.reverse, c.Within (h + 1) := fun c hc =>
      hl.conjuncts c (List.mem_reverse.1 hc)
    exact within_combine (fun h2 => .and h2 fun c h => (hc c h).formed) (by rw [height])
      (by simpa using hne) hc
  · exact hl.disjuncts d hd

theorem condition (hl : l.Fits h) (hne : l.conjuncts ≠ []) : l.condition.Within (h + 3) := by
  have hc : ∀ c ∈ l.disjunct.disjuncts.reverse, c.Within (h + 2) := fun c hc =>
    (hl.disjunct hne).disjuncts c (List.mem_reverse.1 hc)
  exact within_combine (fun h2 => .or h2 fun c h => (hc c h).formed) (by rw [height])
    (by simp [Level.disjunct]) hc

end Level.Fits

/-- How high an operand may be inside `depth` parentheses, before any `not`. -/
def room (limit depth : Nat) : Nat := 3 * (limit - depth) + 1

/-- Inside one more pair of parentheses there is room for three nodes less. -/
theorem room_succ_add_le {limit depth : Nat} (h : depth + 1 ≤ limit) :
    room limit (depth + 1) + 3 ≤ room limit depth := by
  unfold room
  omega

/-- Levels, innermost first, each of which fits where it stands. -/
inductive Stacked (limit : Nat) : List Level → Prop where
  /-- No level. -/
  | nil : Stacked limit []
  /-- One more level inside the others. -/
  | cons {l : Level} {ls : List Level} (h : l.Fits (room limit ls.length))
      (hs : Stacked limit ls) : Stacked limit (l :: ls)

/-! ### Reading -/

/-- A token that names a parameter, if it does, by letters, digits and what else a name may hold. -/
def Named (t : Spanned Token) : Prop := ∀ name, name? t.node = some name → IsName name

theorem firstTooDeep_open_eq_none {limit depth : Nat} {span : Span} {ts : List (Spanned Token)}
    (h : firstTooDeep limit depth (⟨.parenOpen, span⟩ :: ts) = none) :
    depth + 1 ≤ limit ∧ firstTooDeep limit (depth + 1) ts = none := by
  rw [firstTooDeep, if_pos rfl] at h
  split at h
  · cases h
  · next hd => exact ⟨Nat.not_lt.1 hd, h⟩

/-- **What is read is formed and fits the parentheses that may be open.** -/
theorem within_of_read {limit : Nat} {ending : Span} {levels : List Level} {level : Level}
    {due : Bool} {ts : List (Spanned Token)} {c : Condition}
    (h : read ending levels level due ts = .ok c) (hs : Stacked limit (level :: levels))
    (hd : levels.length ≤ limit) (hp : firstTooDeep limit levels.length ts = none)
    (hn : ∀ t ∈ ts, Named t) (hdue : due = false → level.conjuncts ≠ []) :
    c.Within (3 * limit + 4) := by
  obtain _ | ⟨hl, hs⟩ := hs
  -- along the tokens; the scan for deep parentheses keeps the same count as the open levels
  fun_induction read ending levels level due ts with
  | case1 | case3 | case7 | case10 | case12 => cases h
  | case2 level =>
    cases h
    exact hl.condition (hdue rfl)
  | case4 levels level t ts name hname ih =>
    have ho : t.node ≠ .parenOpen ∧ t.node ≠ .parenClose := by
      constructor <;> intro he <;> rw [he] at hname <;> cases hname
    have hp' := (firstTooDeep_other t.span ts ho limit levels.length).symm.trans hp
    obtain ⟨ht, hn⟩ := List.forall_mem_cons.1 hn
    exact ih h hd hp' hn (fun _ => List.cons_ne_nil _ _) hs
      (hl.operand (within_param (ht name hname) _))
  | case5 levels level t ts _ ht ih =>
    obtain ⟨node, span⟩ := t
    obtain rfl : node = .notOp := ht
    rw [firstTooDeep_other span ts (by simp)] at hp
    exact ih h hd hp (List.forall_mem_cons.1 hn).2 (by simp) hs hl.not
  | case6 levels level t ts _ _ ht ih =>
    obtain ⟨node, span⟩ := t
    obtain rfl : node = .parenOpen := ht
    obtain ⟨hlt, hp⟩ := firstTooDeep_open_eq_none hp
    exact ih h hlt hp (List.forall_mem_cons.1 hn).2 (by simp) (.cons hl hs) .empty
  | case8 levels level t ts ht ih =>
    obtain ⟨node, span⟩ := t
    obtain rfl : node = .andOp := ht
    rw [firstTooDeep_other span ts (by simp)] at hp
    exact ih h hd hp (List.forall_mem_cons.1 hn).2 (by simp) hs hl
  | case9 levels level t ts _ ht ih =>
    obtain ⟨node, span⟩ := t
    obtain rfl : node = .orOp := ht
    rw [firstTooDeep_other span ts (by simp)] at hp
    exact ih h hd hp (List.forall_mem_cons.1 hn).2 (by simp) hs (hl.disjunct (hdue rfl))
  | case11 level t ts _ _ outer levels ht ih =>
    obtain ⟨node, span⟩ := t
    obtain rfl : node = .parenClose := ht
    obtain _ | ⟨ho, hs⟩ := hs
    rw [List.length_cons] at hd
    rw [List.length_cons, firstTooDeep_close] at hp
    -- three nodes more at most, and there is room for three more outside the parentheses
    have hc : level.condition.Within (room limit levels.length) :=
      (hl.condition (hdue rfl)).mono (room_succ_add_le hd)
    exact ih h (Nat.le_of_succ_le hd) hp (List.forall_mem_cons.1 hn).2
      (fun _ => List.cons_ne_nil _ _) hs (ho.operand hc)

/-- **A condition is formed, and only as high as parentheses may nest in it.** -/
theorem within_of_parse {limit : Nat} {keyword : Keyword} {head : Span} {closing : Nat}
    {args : List (Spanned Token)} {c : Spanned Condition}
    (h : parse limit keyword head closing args = .ok c) (hn : ∀ t ∈ args, Named t) :
    c.node.Within (3 * limit + 4) := by
  unfold parse at h
  split at h
  · cases h
  split at h
  · cases h
  next hp =>
  obtain ⟨node, hr, hc⟩ := bind_eq_ok_iff.1 h
  cases hc
  exact within_of_read hr (.cons .empty .nil) (Nat.zero_le _) hp hn (by simp)

end Condition

end Stencil
