import Stencil.Position
import Stencil.Proofs.Token.Coverage

/-!
# A line and a column name an offset

One character further on, a place is in the same line and one column on, or, behind a line feed, at
the start of the next line (`Position.after_concat`). So of two boundaries of a text the one further
on has the greater line, or the same line and the greater column. And the line and the column lead
back: past as many line feeds as there are lines before, and from there on through the line, one
comes to the very offset that they were found for (`Position.locate_identifies`).
-/

namespace Stencil

/-! ### The last line -/

namespace Text

theorem lastLine_concat (cs : List Char) (c : Char) :
    lastLine (cs ++ [c]) = if c = '\n' then [] else lastLine cs ++ [c] := by
  rw [lastLine, List.reverse_concat, List.takeWhile_cons]
  by_cases hc : c = '\n'
  · rw [if_pos hc, if_neg (by simpa using hc)]
    rfl
  · rw [if_neg hc, if_pos (by simpa using hc), List.reverse_cons]
    rfl

theorem notMem_lastLine (cs : List Char) : '\n' ∉ lastLine cs := by
  intro h
  have hne := List.mem_takeWhile_imp (List.mem_reverse.1 h)
  simp at hne

/-! ### Walking through a text -/

/-- What is left of a text behind its first `n` line feeds. -/
def afterLines? : (n : Nat) → List Char → Option (List Char)
  | 0, cs => some cs
  | _ + 1, [] => none
  | n + 1, c :: cs => if c = '\n' then afterLines? n cs else afterLines? (n + 1) cs

/-- What is left of a text behind its first `n` characters, if none of these is a line feed. -/
def along? : (n : Nat) → List Char → Option (List Char)
  | 0, cs => some cs
  | _ + 1, [] => none
  | n + 1, c :: cs => if c = '\n' then none else along? n cs

theorem afterLines?_succ (n : Nat) (cs : List Char) :
    afterLines? (n + 1) cs = (afterLines? n cs).bind (afterLines? 1) := by
  induction cs generalizing n with
  | nil => cases n <;> rfl
  | cons c cs ih =>
    cases n with
    | zero => rfl
    | succ n =>
      rw [afterLines?, afterLines?]
      split
      · exact ih n
      · exact ih (n + 1)

theorem afterLines?_one {line : List Char} (h : '\n' ∉ line) (rest : List Char) :
    afterLines? 1 (line ++ '\n' :: rest) = some rest := by
  induction line with
  | nil => rw [List.nil_append, afterLines?, if_pos rfl, afterLines?]
  | cons c line ih =>
    obtain ⟨hc, hline⟩ := List.ne_and_not_mem_of_not_mem_cons h
    rw [List.cons_append, afterLines?, if_neg hc.symm, ih hline]

/-- Behind the line feeds of `cs` stands its last line. -/
theorem afterLines?_count (cs rest : List Char) :
    afterLines? (cs.count '\n') (cs ++ rest) = some (lastLine cs ++ rest) := by
  induction cs using List.reverseRecOn generalizing rest with
  | nil => rw [List.count_nil, afterLines?, lastLine, List.reverse_nil, List.takeWhile_nil,
      List.reverse_nil]
  | append_singleton cs c ih =>
    rw [lastLine_concat, List.count_append, List.append_assoc, List.singleton_append]
    by_cases hc : c = '\n'
    · subst hc
      rw [List.count_singleton_self, afterLines?_succ, ih, if_pos rfl, Option.bind_some,
        afterLines?_one (notMem_lastLine cs), List.nil_append]
    · rw [if_neg hc, List.count_singleton, if_neg (by simpa using hc), Nat.add_zero, ih,
        List.append_assoc, List.singleton_append]

theorem along?_append {line : List Char} (h : '\n' ∉ line) (rest : List Char) :
    along? line.length (line ++ rest) = some rest := by
  induction line with
  | nil => rfl
  | cons c line ih =>
    obtain ⟨hc, hline⟩ := List.ne_and_not_mem_of_not_mem_cons h
    rw [List.length_cons, List.cons_append, along?, if_neg hc.symm, ih hline]

end Text

/-! ### Order -/

namespace Position

/-- An earlier line, or the same line and an earlier column. -/
def Precedes (p q : Position) : Prop := p.line < q.line ∨ p.line = q.line ∧ p.column < q.column

instance (p q : Position) : Decidable (p.Precedes q) :=
  inferInstanceAs (Decidable (p.line < q.line ∨ p.line = q.line ∧ p.column < q.column))

theorem Precedes.trans {p q r : Position} (h : p.Precedes q) (h' : q.Precedes r) :
    p.Precedes r := by
  unfold Precedes at *
  omega

theorem Precedes.asymm {p q : Position} (h : p.Precedes q) : ¬ q.Precedes p := by
  unfold Precedes at *
  omega

/-- One character further on: behind a line feed a new line starts, and behind any other character
the line goes on. -/
theorem after_concat (cs : List Char) (c : Char) (m n : Nat) :
    after (cs ++ [c]) n =
      if c = '\n' then ⟨n, (after cs m).line + 1, 1⟩
      else ⟨n, (after cs m).line, (after cs m).column + 1⟩ := by
  rw [after, after, Text.lastLine_concat, List.count_append, List.count_singleton]
  by_cases hc : c = '\n'
  · rw [if_pos hc, if_pos hc, if_pos (by simpa using hc)]
    rfl
  · rw [if_neg hc, if_neg hc, if_neg (by simpa using hc), List.length_append,
      List.length_singleton]

theorem after_precedes_concat (cs : List Char) (c : Char) (m n : Nat) :
    (after cs m).Precedes (after (cs ++ [c]) n) := by
  rw [after_concat cs c m n]
  split
  · exact .inl (Nat.lt_succ_self _)
  · exact .inr ⟨rfl, Nat.lt_succ_self _⟩

theorem after_precedes_append (cs : List Char) {ds : List Char} (hds : ds ≠ []) (m n : Nat) :
    (after cs m).Precedes (after (cs ++ ds) n) := by
  induction ds using List.reverseRecOn generalizing n with
  | nil => exact absurd rfl hds
  | append_singleton ds d ih =>
    rw [← List.append_assoc]
    have hstep := after_precedes_concat (cs ++ ds) d 0 n
    by_cases hnil : ds = []
    · rw [hnil, List.append_nil] at hstep ⊢
      exact after_precedes_concat cs d m n
    · exact (ih hnil 0).trans hstep

/-! ### Boundaries -/

/-- The offset that the line and the column lead to in a text: past the line feeds of the lines
before, and then forward within the line. -/
def reached? (p : Position) (source : List Char) : Option Nat := do
  let line ← Text.afterLines? (p.line - 1) source
  let rest ← Text.along? (p.column - 1) line
  return Text.size source - Text.size rest

theorem locate_of_before {source : String} {before : List Char} (h : before <+: source.toList) :
    locate source (Text.size before) = after before (Text.size before) := by
  rw [locate, Text.before?_eq_some_iff.2 ⟨h, rfl⟩, Option.getD_some]

theorem reached?_after {source before : List Char} (h : before <+: source) (n : Nat) :
    (after before n).reached? source = some (Text.size before) := by
  obtain ⟨rest, rfl⟩ := h
  have hline : Text.afterLines? ((after before n).line - 1) (before ++ rest) =
      some (Text.lastLine before ++ rest) := Text.afterLines?_count before rest
  have hrest : Text.along? ((after before n).column - 1) (Text.lastLine before ++ rest) =
      some rest := Text.along?_append (Text.notMem_lastLine before) rest
  simp only [reached?, hline, hrest, Option.bind_eq_bind, Option.bind_some, Text.size_append,
    Nat.add_sub_cancel, Option.pure_def]

theorem locate_precedes {source : String} {m n : Nat} (hm : IsBoundary source.toList m)
    (hn : IsBoundary source.toList n) (h : m < n) :
    (locate source m).Precedes (locate source n) := by
  obtain ⟨before, hb, rfl⟩ := hm
  obtain ⟨before', hb', rfl⟩ := hn
  rw [locate_of_before hb, locate_of_before hb']
  obtain ⟨mid, rfl⟩ | ⟨mid, rfl⟩ := List.prefix_or_prefix_of_prefix hb hb'
  · refine after_precedes_append before ?_ _ _
    rintro rfl
    rw [List.append_nil] at h
    exact Nat.lt_irrefl _ h
  · rw [Text.size_append] at h
    omega

/-- **The line and the column of a boundary name it.** They stand in the order of the offsets, and
they lead back: behind `line - 1` line feeds, and `column - 1` characters further on in the line, is
the offset. -/
theorem locate_identifies (source : String) :
    (∀ m n, IsBoundary source.toList m → IsBoundary source.toList n →
      (m < n ↔ (locate source m).Precedes (locate source n))) ∧
    ∀ n, IsBoundary source.toList n →
      1 ≤ (locate source n).line ∧ 1 ≤ (locate source n).column ∧
        (locate source n).reached? source.toList = some n := by
  refine ⟨fun m n hm hn => ⟨locate_precedes hm hn, fun h => ?_⟩, ?_⟩
  · obtain hlt | rfl | hgt := Nat.lt_trichotomy m n
    · exact hlt
    · exact absurd h h.asymm
    · exact absurd (locate_precedes hn hm hgt) h.asymm
  · rintro n ⟨before, hb, rfl⟩
    rw [locate_of_before hb]
    exact ⟨Nat.le_add_left 1 _, Nat.le_add_left 1 _, reached?_after hb _⟩

/-- Between two line feeds at the end of a text that begins with another one. -/
theorem locate_identifies_between_line_feeds :
    locate "\né\n\n" 4 = ⟨4, 3, 1⟩ ∧
      (locate "\né\n\n" 1).Precedes (locate "\né\n\n" 4) ∧
      (locate "\né\n\n" 4).reached? "\né\n\n".toList = some 4 := by
  have hm : IsBoundary "\né\n\n".toList 1 := ⟨['\n'], by decide, by decide⟩
  have hn : IsBoundary "\né\n\n".toList 4 := ⟨['\n', 'é', '\n'], by decide, by decide⟩
  obtain ⟨horder, hback⟩ := locate_identifies "\né\n\n"
  exact ⟨by decide, (horder 1 4 hm hn).1 (by decide), (hback 4 hn).2.2⟩

end Position

end Stencil
