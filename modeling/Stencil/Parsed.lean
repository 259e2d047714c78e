/-!
# Parts of a text

A reader that takes its input from the front of a list of characters leaves the rest. Carrying
the proof that the rest is shorter is what lets a reader call itself on it.
-/

namespace Stencil

/-- What was read from the front of a text of at most `n` characters, and the text after it,
which is shorter than that. -/
structure Parsed (α : Type) (n : Nat) where
  /-- What was read. -/
  value : α
  /-- What follows. -/
  rest : List Char
  /-- Something was read. -/
  length_rest_lt : rest.length < n

namespace Parsed

variable {α β : Type} {n m : Nat}

/-- The same reading from the front of a longer text. -/
def widen (p : Parsed α n) (h : n ≤ m) : Parsed α m :=
  ⟨p.value, p.rest, Nat.lt_of_lt_of_le p.length_rest_lt h⟩

/-- The same reading of another value. -/
def map (f : α → β) (p : Parsed α n) : Parsed β n := ⟨f p.value, p.rest, p.length_rest_lt⟩

end Parsed

theorem length_lt_cons (c : Char) (cs : List Char) : cs.length < (c :: cs).length :=
  Nat.lt_succ_self _

theorem length_lt_cons_succ (c : Char) (cs : List Char) : cs.length < (c :: cs).length + 1 :=
  Nat.lt_succ_of_lt (length_lt_cons c cs)

theorem length_succ_le_cons_succ (c : Char) {cs rest : List Char} (h : rest.length ≤ cs.length) :
    rest.length + 1 ≤ (c :: cs).length + 1 :=
  Nat.le_succ_of_le (Nat.succ_le_succ h)

theorem length_lt_of_eq_cons {cs rest : List Char} {c : Char} {n : Nat} (h : cs = c :: rest)
    (hn : cs.length ≤ n) : rest.length < n := by
  subst h
  exact Nat.lt_of_lt_of_le (length_lt_cons c rest) hn

theorem length_dropWhile_le (p : Char → Bool) (cs : List Char) :
    (cs.dropWhile p).length ≤ cs.length :=
  (List.dropWhile_suffix p).length_le

end Stencil
