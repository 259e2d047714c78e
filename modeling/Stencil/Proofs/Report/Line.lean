import Stencil.Report.Line

/-!
# The line that a character is in

A report finds the line of a character by cutting the whole source into lines. The same line is found
by going through the text before that character once and starting a new line behind every character
that ends one (`SourceLine.lineAfter`, `SourceLine.exists_containing?`). A carriage return in front of
a line feed ends no line, the line feed does.
-/

namespace Stencil

namespace SourceLine

/-! ### Cutting off one character -/

/-- A character ends a line in front of `next`. -/
def Ends (c : Char) (next : Option Char) : Prop := isBreak c ∧ ¬ (c = '\r' ∧ next = some '\n')

instance (c : Char) (next : Option Char) : Decidable (Ends c next) :=
  inferInstanceAs (Decidable (isBreak c ∧ ¬ (c = '\r' ∧ next = some '\n')))

theorem ends_lineFeed (next : Option Char) : Ends '\n' next := ⟨by decide, by simp⟩

/-- Lines with a stretch of text in front of the first. -/
def prepend (text : List Char) : List (List Char) → List (List Char)
  | [] => [text]
  | l :: ls => (text ++ l) :: ls

theorem prepend_nil {ls : List (List Char)} (h : ls ≠ []) : prepend [] ls = ls := by
  cases ls with
  | nil => exact absurd rfl h
  | cons l ls => rfl

theorem prepend_prepend (a b : List Char) (ls : List (List Char)) :
    prepend a (prepend b ls) = prepend (a ++ b) ls := by
  cases ls with
  | nil => rfl
  | cons l ls => rw [prepend, prepend, prepend, List.append_assoc]

/-- A character is a line of its own where it ends one, and otherwise begins the next line. -/
theorem split_cons (c : Char) (cs : List Char) :
    split (c :: cs) = if Ends c cs.head? then [c] :: split cs else prepend [c] (split cs) := by
  by_cases hcr : c = '\r' ∧ cs.head? = some '\n'
  · obtain ⟨rfl, hhead⟩ := hcr
    obtain ⟨cs, rfl⟩ := List.head?_eq_some_iff.1 hhead
    have hfeed : split ('\n' :: cs) = ['\n'] :: split cs := by
      rw [split, if_pos (by decide)]
      simp
    rw [if_neg (fun h => h.2 ⟨rfl, rfl⟩), hfeed, split]
    rfl
  · rw [split]
    · by_cases hb : isBreak c
      · rw [if_pos hb, if_pos ⟨hb, hcr⟩]
      · rw [if_neg hb, if_neg fun h => hb h.1]
        cases split cs <;> rfl
    · rintro cs' rfl rfl
      exact hcr ⟨rfl, rfl⟩

theorem exists_split_cons (c : Char) (cs : List Char) :
    ∃ l ls, split (c :: cs) = (c :: l) :: ls := by
  rw [split_cons]
  split
  · exact ⟨_, _, rfl⟩
  · cases split cs with
    | nil => exact ⟨_, _, rfl⟩
    | cons l ls => exact ⟨_, _, rfl⟩

theorem split_ne_nil {cs : List Char} (h : cs ≠ []) : split cs ≠ [] := by
  obtain ⟨c, cs, rfl⟩ := List.exists_cons_of_ne_nil h
  obtain ⟨l, ls, hs⟩ := exists_split_cons c cs
  rw [hs]
  exact List.cons_ne_nil _ _

theorem ne_nil_of_mem_split {cs l : List Char} (h : l ∈ split cs) : l ≠ [] := by
  induction cs generalizing l with
  | nil => cases h
  | cons c cs ih =>
    rw [split_cons] at h
    split at h
    · obtain rfl | h := List.mem_cons.1 h
      · exact List.cons_ne_nil _ _
      · exact ih h
    · cases hs : split cs with
      | nil =>
        rw [hs] at h
        obtain rfl := List.mem_singleton.1 h
        exact List.cons_ne_nil _ _
      | cons l' ls =>
        rw [hs] at h ih
        obtain rfl | h := List.mem_cons.1 h
        · exact List.cons_ne_nil _ _
        · exact ih (List.mem_cons_of_mem _ h)

/-! ### Finding a line -/

variable {index start n : Nat}

theorem le_start_of_mem_number {ls : List (List Char)} {l : SourceLine}
    (h : l ∈ number index start ls) : start ≤ l.start := by
  induction ls generalizing index start with
  | nil => cases h
  | cons c ls ih =>
    obtain rfl | h := List.mem_cons.1 h
    · exact Nat.le_refl _
    · exact Nat.le_trans (Nat.le_add_right _ _) (ih h)

theorem start_lt_of_mem_number {ls : List (List Char)} {l : SourceLine} (hls : ∀ l ∈ ls, l ≠ [])
    (h : l ∈ number index start ls) : l.start < start + ls.flatten.length := by
  induction ls generalizing index start with
  | nil => cases h
  | cons c ls ih =>
    obtain ⟨hc, hls⟩ := List.forall_mem_cons.1 hls
    have hpos := List.length_pos_iff.2 hc
    rw [List.flatten_cons, List.length_append]
    obtain rfl | h := List.mem_cons.1 h
    · dsimp only
      omega
    · have hlt := ih hls h
      omega

theorem containing?_number_of_lt (h : n < start) (ls : List (List Char)) :
    containing? n (number index start ls) = none := by
  rw [containing?, List.getLast?_eq_none_iff, List.filter_eq_nil_iff]
  intro l hl
  have hle := le_start_of_mem_number hl
  simp only [decide_eq_true_eq]
  omega

/-- The first line is the one, unless a later one is. -/
theorem containing?_number_cons (h : start ≤ n) (l : List Char) (ls : List (List Char)) :
    containing? n (number index start (l :: ls)) =
      some ((containing? n (number (index + 1) (start + l.length) ls)).getD ⟨index, start, l⟩) := by
  rw [containing?, number, List.filter_cons, if_pos (by simpa using h), List.getLast?_cons]
  rfl

/-- The index and the start of the line that a text leads to from the line `index`, which starts at
`start`; `offset` characters come before the text, and `rest` follows it. -/
def lineAfter (index start offset : Nat) : (text rest : List Char) → Nat × Nat
  | [], _ => (index, start)
  | c :: text, rest =>
    if Ends c (text ++ rest).head? then lineAfter (index + 1) (offset + 1) (offset + 1) text rest
    else lineAfter index start (offset + 1) text rest

/-- The line of the character behind a text, where `first` is how the first line begins. -/
theorem exists_containing?_number {rest : List Char} (hr : rest ≠ []) (text first : List Char)
    (hn : n = start + first.length + text.length) :
    ∃ l, containing? n (number index start (prepend first (split (text ++ rest)))) = some l ∧
      (l.index, l.start) = lineAfter index start (start + first.length) text rest := by
  induction text generalizing index start first with
  | nil =>
    obtain ⟨c, rest, rfl⟩ := List.exists_cons_of_ne_nil hr
    obtain ⟨l, ls, hs⟩ := exists_split_cons c rest
    have hlt : n < start + (first ++ c :: l).length := by
      rw [hn, List.length_append, List.length_cons, List.length_nil]
      omega
    refine ⟨⟨index, start, first ++ c :: l⟩, ?_, rfl⟩
    rw [List.nil_append, hs, prepend, containing?_number_cons (by omega),
      containing?_number_of_lt hlt, Option.getD_none]
  | cons c text ih =>
    have hne : split (text ++ rest) ≠ [] := split_ne_nil (by simp [hr])
    rw [List.cons_append, split_cons, lineAfter]
    split
    · -- the line ends here, and the search goes on behind it
      have hnext : n = start + first.length + 1 + ([] : List Char).length + text.length := by
        rw [hn, List.length_cons, List.length_nil]
        omega
      obtain ⟨l, hl, hplace⟩ := @ih (index + 1) (start + first.length + 1) [] hnext
      rw [prepend_nil hne] at hl
      refine ⟨l, ?_, hplace⟩
      rw [prepend, containing?_number_cons (by omega), List.length_append, List.length_singleton,
        ← Nat.add_assoc, hl, Option.getD_some]
    · have hnext : n = start + (first ++ [c]).length + text.length := by
        rw [hn, List.length_cons, List.length_append, List.length_singleton]
        omega
      obtain ⟨l, hl, hplace⟩ := ih (first ++ [c]) hnext
      rw [List.length_append, List.length_singleton, ← Nat.add_assoc] at hplace
      rw [prepend_prepend]
      exact ⟨l, hl, hplace⟩

/-- **The line of a character is the one that the text before it leads to.** -/
theorem exists_containing? (text : List Char) {rest : List Char} (hr : rest ≠ []) :
    ∃ l, containing? text.length (ofSource (text ++ rest)) = some l ∧
      (l.index, l.start) = lineAfter 0 0 0 text rest := by
  have hn : text.length = 0 + ([] : List Char).length + text.length := by
    rw [List.length_nil, Nat.add_zero, Nat.zero_add]
  obtain ⟨l, hl, hplace⟩ := @exists_containing?_number 0 0 _ _ hr text [] hn
  rw [prepend_nil (split_ne_nil (by simp [hr]))] at hl
  exact ⟨l, hl, hplace⟩

theorem start_lt_of_mem_ofSource {cs : List Char} {l : SourceLine} (h : l ∈ ofSource cs) :
    l.start < cs.length := by
  have hlt := start_lt_of_mem_number (fun _ => ne_nil_of_mem_split) h
  rwa [split_flatten, Nat.zero_add] at hlt

/-- The end of a text is in the line of its last character. -/
theorem containing?_length (cs : List Char) (c : Char) :
    containing? (cs ++ [c]).length (ofSource (cs ++ [c])) =
      containing? cs.length (ofSource (cs ++ [c])) := by
  rw [containing?, containing?]
  congr 1
  refine List.filter_congr fun l hl => ?_
  have hlt := start_lt_of_mem_ofSource hl
  rw [List.length_append, List.length_singleton] at hlt ⊢
  rw [decide_eq_decide]
  omega

theorem containing?_ne_none (n : Nat) {cs : List Char} (h : cs ≠ []) :
    containing? n (ofSource cs) ≠ none := by
  obtain ⟨l, ls, hs⟩ := List.exists_cons_of_ne_nil (split_ne_nil h)
  rw [ofSource, hs, containing?_number_cons (Nat.zero_le n)]
  exact Option.some_ne_none _

theorem lineAfter_concat (index start offset : Nat) (text : List Char) (c : Char)
    (rest : List Char) :
    lineAfter index start offset (text ++ [c]) rest =
      if Ends c rest.head? then
        ((lineAfter index start offset text (c :: rest)).1 + 1, offset + text.length + 1)
      else lineAfter index start offset text (c :: rest) := by
  induction text generalizing index start offset with
  | nil => rfl
  | cons d text ih =>
    rw [List.cons_append, lineAfter, lineAfter, List.append_assoc, List.singleton_append,
      List.length_cons]
    have hlen : offset + (text.length + 1) + 1 = offset + 1 + text.length + 1 := by omega
    rw [hlen]
    split
    · exact ih _ _ _
    · exact ih _ _ _

end SourceLine

end Stencil
