import Stencil.Parsed
import Stencil.Toml.Word

/-!
# TOML strings

A string stands between double quotes, where a backslash begins an escape, or between single
quotes, where it does not. Three quotes instead of one let it run over several lines: a line
break right after them is dropped, every other one counts as a line feed, and up to two quotes
may stand right before the closing three.
-/

namespace Stencil

namespace Toml

/-- The blanks within a line. -/
def isSpace (c : Char) : Bool := c == ' ' || c == '\t'

/-- The text after the blanks at its front. -/
def skipSpace (cs : List Char) : List Char := cs.dropWhile isSpace

/-- The text after a line break at its front. -/
def lineBreak? : List Char → Option (List Char)
  | '\n' :: cs => some cs
  | '\r' :: '\n' :: cs => some cs
  | _ => none

/-- A character that may stand as it is in a comment or in a string, its quote and, for an
escaping one, the backslash apart. -/
def isPlain (c : Char) : Bool := c == '\t' || (32 ≤ c.toNat && c.toNat ≠ 127)

/-- The character of a code point, which is no half of a surrogate pair. -/
def charOf? (n : Nat) : Option Char := if n.isValidChar then some (Char.ofNat n) else none

/-- The character of `digits` hexadecimal digits, and what follows them. -/
def codePoint? (digits : Nat) (cs : List Char) : Option (Char × List Char) :=
  let ds := cs.take digits
  if ds.length = digits ∧ ds.all (isDigitOf 16) then
    (charOf? (numberOf 16 ds)).map fun c => (c, cs.drop digits)
  else none

/-- The character of an escape, from after its backslash, and what follows it. -/
def escape? : List Char → Option (Char × List Char)
  | 'b' :: cs => some ('\x08', cs)
  | 't' :: cs => some ('\t', cs)
  | 'n' :: cs => some ('\n', cs)
  | 'f' :: cs => some ('\x0c', cs)
  | 'r' :: cs => some ('\r', cs)
  | '\x22' :: cs => some ('\x22', cs)
  | '\\' :: cs => some ('\\', cs)
  | 'u' :: cs => codePoint? 4 cs
  | 'U' :: cs => codePoint? 8 cs
  | _ => none

theorem length_codePoint?_le {digits : Nat} {cs rest : List Char} {c : Char}
    (h : codePoint? digits cs = some (c, rest)) : rest.length ≤ cs.length := by
  simp only [codePoint?] at h
  split at h
  · obtain ⟨d, -, he⟩ := Option.map_eq_some_iff.1 h
    simp only [Prod.mk.injEq] at he
    rw [← he.2, List.length_drop]
    omega
  · simp at h

theorem length_escape?_le {cs rest : List Char} {c : Char} (h : escape? cs = some (c, rest)) :
    rest.length ≤ cs.length := by
  unfold escape? at h
  split at h
  case h_8 | h_9 =>
    have := length_codePoint?_le h
    simp only [List.length_cons]
    omega
  case h_10 => simp at h
  all_goals
    simp only [Option.some.injEq, Prod.mk.injEq] at h
    rw [← h.2, List.length_cons]
    omega

/-- The text after a line break that an escaping string ignores, from after its backslash:
the break and all blanks and breaks after it. -/
def continuation? (cs : List Char) : Option (List Char) :=
  (lineBreak? (skipSpace cs)).map fun rest => skipBreaks rest
where
  /-- The text after blanks and line breaks. -/
  skipBreaks : List Char → List Char
    | '\r' :: '\n' :: cs => skipBreaks cs
    | c :: cs => if c = '\n' ∨ isSpace c then skipBreaks cs else c :: cs
    | [] => []

theorem length_skipBreaks_le (cs : List Char) :
    (continuation?.skipBreaks cs).length ≤ cs.length := by
  fun_induction continuation?.skipBreaks cs with
  | case1 cs ih => simp only [List.length_cons]; omega
  | case2 c cs _ _ ih => simp only [List.length_cons]; omega
  | case3 => simp
  | case4 => simp

theorem length_lineBreak?_lt {cs rest : List Char} (h : lineBreak? cs = some rest) :
    rest.length < cs.length := by
  unfold lineBreak? at h
  split at h
  · simp only [Option.some.injEq] at h
    simp [h]
  · simp only [Option.some.injEq] at h
    simp only [← h, List.length_cons]
    omega
  · simp at h

theorem length_continuation?_lt {cs rest : List Char} (h : continuation? cs = some rest) :
    rest.length < cs.length := by
  obtain ⟨r, hr, rfl⟩ := Option.map_eq_some_iff.1 h
  have h1 := length_lineBreak?_lt hr
  have h2 := length_skipBreaks_le r
  have h3 := length_dropWhile_le isSpace cs
  simp only [skipSpace] at h1
  omega

/-! ### On one line -/

/-- A string on one line, from after its opening quote `q`; `escapes` says whether a backslash
begins an escape. -/
def lineString (q : Char) (escapes : Bool) (cs : List Char) :
    Option (Parsed (List Char) (cs.length + 1)) :=
  match cs with
  | [] => none
  | c :: rest =>
    if c = q then some ⟨[], rest, length_lt_cons_succ c rest⟩
    else if escapes && c == '\\' then
      match h : escape? rest with
      | none => none
      | some (e, after) =>
        have := length_escape?_le h
        (lineString q escapes after).map fun p =>
          (p.map (e :: ·)).widen (length_succ_le_cons_succ c this)
    else if isPlain c then
      (lineString q escapes rest).map fun p => (p.map (c :: ·)).widen (length_lt_cons_succ c rest)
    else none
termination_by cs.length
decreasing_by all_goals simp only [List.length_cons]; omega

/-! ### Over several lines -/

/-- The number of quotes `q` at the front of a text. -/
def quoteRun (q : Char) (cs : List Char) : Nat := (cs.takeWhile (· == q)).length

/-- A string over several lines, from after its opening quotes. -/
def blockString (q : Char) (escapes : Bool) (cs : List Char) :
    Option (Parsed (List Char) (cs.length + 1)) :=
  match cs with
  | [] => none
  | c :: rest =>
    if c = q then
      let n := quoteRun q (c :: rest)
      if n < 3 then
        (blockString q escapes rest).map fun p =>
          (p.map (c :: ·)).widen (length_lt_cons_succ c rest)
      else if n ≤ 5 then
        some ⟨List.replicate (n - 3) q, (c :: rest).drop n, by
          simp only [List.length_drop, List.length_cons]; omega⟩
      else none
    else if escapes && c == '\\' then
      match h : continuation? rest with
      | some after =>
        have := length_continuation?_lt h
        (blockString q escapes after).map fun p =>
          p.widen (length_succ_le_cons_succ c (Nat.le_of_lt this))
      | none =>
        match h' : escape? rest with
        | none => none
        | some (e, after) =>
          have := length_escape?_le h'
          (blockString q escapes after).map fun p =>
            (p.map (e :: ·)).widen (length_succ_le_cons_succ c this)
    else
      match h : lineBreak? (c :: rest) with
      | some after =>
        have := length_lineBreak?_lt h
        (blockString q escapes after).map fun p =>
          (p.map ('\n' :: ·)).widen (Nat.le_succ_of_le this)
      | none =>
        if isPlain c then
          (blockString q escapes rest).map fun p =>
            (p.map (c :: ·)).widen (length_lt_cons_succ c rest)
        else none
termination_by cs.length
decreasing_by all_goals simp only [List.length_cons] at *; omega

/-- A string, from its opening quote. -/
def string? (cs : List Char) : Option (Parsed (List Char) cs.length) :=
  match cs with
  | [] => none
  | q :: rest =>
    let escapes := q == '\x22'
    if ¬(escapes ∨ q = '\x27') then none
    else if rest.take 2 = [q, q] then
      let body := rest.drop 2
      have hb : body.length ≤ rest.length := by simp only [body, List.length_drop]; omega
      match h : lineBreak? body with
      | some after =>
        have := length_lineBreak?_lt h
        (blockString q escapes after).map (·.widen (by simp only [List.length_cons]; omega))
      | none =>
        (blockString q escapes body).map (·.widen (by simp only [List.length_cons]; omega))
    else (lineString q escapes rest).map (·.widen (length_lt_cons q rest))

end Toml

end Stencil
