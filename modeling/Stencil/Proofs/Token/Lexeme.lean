import Mathlib.Data.List.TakeWhile
import Mathlib.Tactic.SplitIfs
import Stencil.Token.Scan

/-!
# The texts of tokens

`Token.Spelled` is the grammar of single tokens: which texts a token may be read from, with
no word on what follows. The reader takes such a text, and as much of it as there is: a text
that ends in a name character is not cut off before another one (`Lexeme.read_eq_token_iff`).
What is read therefore does not depend on anything after the first character that follows.
-/

namespace Stencil

/-! ### Quoted strings -/

/-- What may stand between two quotes `q`: any characters but the quote and the backslash,
and a backslash together with the character after it, unless that is a line feed. -/
inductive Quoted.Body (q : Char) : List Char → Prop where
  /-- Nothing. -/
  | nil : Body q []
  /-- A backslash and the character it protects. -/
  | escape {c : Char} {cs : List Char} (hc : c ≠ '\n') : Body q cs → Body q ('\\' :: c :: cs)
  /-- A character that stands for itself. -/
  | plain {c : Char} {cs : List Char} (hb : c ≠ '\\') (hq : c ≠ q) : Body q cs → Body q (c :: cs)

/-- A string is read up to the first quote that is not protected. -/
theorem Quoted.read_eq_closed_iff {q : Char} (hq : q ≠ '\\') {cs body rest : List Char} :
    Quoted.read q cs = .closed body rest ↔ Quoted.Body q body ∧ cs = body ++ q :: rest := by
  constructor
  · intro h
    refine ⟨?_, (Quoted.read_append h).symm⟩
    fun_induction Quoted.read q cs generalizing body with
    | case1 | case2 | case3 => simp at h
    | case4 c cs hc ih =>
      obtain ⟨b, hb, rfl⟩ := Quoted.push_eq_closed h
      exact .escape hc (ih hb)
    | case5 c cs =>
      simp only [Quoted.closed.injEq] at h
      rw [← h.1]
      exact .nil
    | case6 c cs h1 h2 hc ih =>
      obtain ⟨b, hb, rfl⟩ := Quoted.push_eq_closed h
      refine .plain ?_ hc (ih hb)
      rintro rfl
      cases cs with
      | nil => exact h1 rfl rfl
      | cons d ds => exact h2 d ds rfl rfl
  · rintro ⟨hb, rfl⟩
    induction hb with
    | nil => simp [Quoted.read, hq]
    | escape hc _ ih => simp [Quoted.read, hc, ih, Quoted.push]
    | plain hb hq' _ ih => simp [Quoted.read, hb, hq', ih, Quoted.push]

/-- A string that is not closed runs as far as it can go on. -/
theorem Quoted.prefix_of_unclosed {q : Char} {cs run : List Char}
    (h : Quoted.read q cs = .unclosed run) : run <+: cs := by
  have hpush : ∀ {text : List Char} {r : Quoted} {run : List Char}, r.push text = .unclosed run →
      ∃ run', r = .unclosed run' ∧ run = text ++ run' := by
    intro text r run h
    cases r with
    | closed body rest => cases h
    | unclosed run' =>
      cases h
      exact ⟨run', rfl, rfl⟩
  fun_induction Quoted.read q cs generalizing run with
  | case1 | case2 | case3 =>
    cases h
    exact List.nil_prefix
  | case4 c cs hc ih =>
    obtain ⟨run, hr, rfl⟩ := hpush h
    exact (List.prefix_append_right_inj ['\\', c]).2 (ih hr)
  | case5 => cases h
  | case6 c cs _ _ hc ih =>
    obtain ⟨run, hr, rfl⟩ := hpush h
    exact (List.prefix_append_right_inj [c]).2 (ih hr)

/-! ### Tokens -/

/-- The texts that a token may be read from. -/
inductive Token.Spelled : Token → List Char → Prop where
  /-- `[%`. -/
  | directiveOpen : Spelled .directiveOpen ['[', '%']
  /-- `%]`. -/
  | directiveClose : Spelled .directiveClose ['%', ']']
  /-- `[[`. -/
  | interpolationOpen : Spelled .interpolationOpen ['[', '[']
  /-- `]]`. -/
  | interpolationClose : Spelled .interpolationClose [']', ']']
  /-- `(`. -/
  | parenOpen : Spelled .parenOpen ['(']
  /-- `)`. -/
  | parenClose : Spelled .parenClose [')']
  /-- A name after a `$`. -/
  | var {c : Char} {cs : List Char} (hc : isNameStart c) (hcs : ∀ d ∈ cs, isNameChar d) :
      Spelled (.var (String.ofList (c :: cs))) ('$' :: c :: cs)
  /-- A name, which may be a keyword or an operator. -/
  | name {c : Char} {cs : List Char} (hc : isNameStart c) (hcs : ∀ d ∈ cs, isNameChar d) :
      Spelled (.ofName (String.ofList (c :: cs))) (c :: cs)
  /-- A string between two quotes. -/
  | string {q : Char} {body : List Char} (hq : q = '\x22' ∨ q = '\x27') (hb : Quoted.Body q body) :
      Spelled (.string (String.ofList (unescape body))) (q :: body ++ [q])

theorem Token.spelled_word {c : Char} {cs : List Char} (hc : isNameStart c)
    (hcs : cs.all isNameChar) : Token.Spelled (.ofName (String.ofList (c :: cs))) (c :: cs) :=
  .name hc (List.all_eq_true.1 hcs)

theorem Token.spelled_keyword (k : Keyword) : Token.Spelled (.keyword k) k.word.toList := by
  cases k
  · exact @Token.spelled_word 'i' ['f'] rfl rfl
  · exact @Token.spelled_word 'e' ['l', 'i', 'f'] rfl rfl
  · exact @Token.spelled_word 'e' ['l', 's', 'e'] rfl rfl
  · exact @Token.spelled_word 'e' ['n', 'd', 'i', 'f'] rfl rfl
  · exact @Token.spelled_word 'i' ['n', 'c', 'l', 'u', 'd', 'e'] rfl rfl

/-- A keyword, an operator that is a word, or a name of its own. -/
def Token.isWord : Token → Bool
  | .keyword _ | .notOp | .andOp | .orOp | .ident _ => true
  | _ => false

theorem Token.isWord_ofName (name : String) : (Token.ofName name).isWord := by
  unfold Token.ofName
  split_ifs <;> rfl

/-- A text that ends in a name character is not followed by another. -/
def EndsBefore (text rest : List Char) : Prop :=
  ∀ a ∈ text.getLast?, ∀ b ∈ rest.head?, isNameChar a → isNameChar b = false

theorem EndsBefore.append_right {text rest : List Char} (h : EndsBefore text rest) (hr : rest ≠ [])
    (ds : List Char) : EndsBefore text (rest ++ ds) := by
  cases rest with
  | nil => exact absurd rfl hr
  | cons c rest => exact h

theorem EndsBefore.of_append {text rest ds : List Char} (h : EndsBefore text (rest ++ ds)) :
    EndsBefore text rest := by
  cases rest with
  | nil => exact fun _ _ _ => nofun
  | cons c rest => exact h

theorem endsBefore_of_last {text rest : List Char} {a : Char} (h : text.getLast? = some a)
    (ha : isNameChar a = false) : EndsBefore text rest := by
  intro a' h' b _ hn
  rw [h, Option.mem_some_iff] at h'
  rw [← h', ha] at hn
  exact absurd hn (by decide)

theorem isNameChar_of_isNameStart {c : Char} (h : isNameStart c) : isNameChar c := by
  simp only [isNameStart, Bool.or_eq_true] at h
  simp only [isNameChar, Char.isAlphanum, Bool.or_eq_true]
  rcases h with h | h
  · exact .inl (.inl (.inl (.inl h)))
  · exact .inl (.inl (.inr h))

/-- Where a run of name characters stops, no name goes on. -/
theorem endsBefore_dropWhile (text cs : List Char) :
    EndsBefore text (cs.dropWhile isNameChar) := by
  intro a _ b hb _
  have := List.head?_dropWhile_not isNameChar cs
  rw [Option.mem_def] at hb
  simpa [hb] using this

/-- The end of a run of name characters is where it stops. -/
theorem takeWhile_name {cs rest : List Char} (c : Char) (hcs : ∀ d ∈ cs, isNameChar d)
    (hc : isNameChar c) (h : EndsBefore (c :: cs) rest) :
    (cs ++ rest).takeWhile isNameChar = cs ∧ (cs ++ rest).dropWhile isNameChar = rest := by
  have hstop : ∀ b ∈ rest.head?, isNameChar b = false := by
    intro b hb
    cases hl : (c :: cs).getLast? with
    | none => simp at hl
    | some a =>
      refine h a hl b hb ?_
      rcases List.mem_cons.1 (List.mem_of_getLast? hl) with rfl | ha
      · exact hc
      · exact hcs a ha
  rw [List.takeWhile_append_of_pos hcs, List.dropWhile_append_of_pos hcs]
  cases rest with
  | nil => simp
  | cons b rest => simp [hstop b rfl]

theorem Lexeme.spelled_of_read {cs text rest : List Char} {t : Token}
    (h : Lexeme.read cs = .token t text rest) : t.Spelled text ∧ EndsBefore text rest := by
  unfold Lexeme.read at h
  split at h
  case h_1 => simp at h
  case h_6 c cs _ _ _ _ =>
    split at h
    · next hc =>
      simp only [Lexeme.token.injEq] at h
      obtain ⟨rfl, rfl, rfl⟩ := h
      subst hc
      exact ⟨.parenOpen, endsBefore_of_last rfl (by decide)⟩
    split at h
    · next hc =>
      simp only [Lexeme.token.injEq] at h
      obtain ⟨rfl, rfl, rfl⟩ := h
      subst hc
      exact ⟨.parenClose, endsBefore_of_last rfl (by decide)⟩
    split at h
    · split at h
      · next hc hn =>
        simp only [Lexeme.token.injEq] at h
        obtain ⟨rfl, rfl, rfl⟩ := h
        subst hc
        refine ⟨?_, endsBefore_dropWhile _ _⟩
        cases cs with
        | nil => simp at hn
        | cons d ds =>
          have hd : isNameStart d := by simpa using hn
          rw [List.takeWhile_cons_of_pos (isNameChar_of_isNameStart hd)]
          exact .var hd fun e he => (List.mem_takeWhile_imp he)
      · simp at h
    split at h
    · next hn =>
      simp only [Lexeme.token.injEq] at h
      obtain ⟨rfl, rfl, rfl⟩ := h
      exact ⟨.name hn fun e he => List.mem_takeWhile_imp he, endsBefore_dropWhile _ _⟩
    split at h
    · next hq =>
      split at h
      · next body rest hr =>
        simp only [Lexeme.token.injEq] at h
        obtain ⟨rfl, rfl, rfl⟩ := h
        have hb : c ≠ '\\' := by rcases hq with rfl | rfl <;> decide
        refine ⟨.string hq ((Quoted.read_eq_closed_iff hb).1 hr).1, ?_⟩
        refine endsBefore_of_last (a := c) List.getLast?_concat ?_
        rcases hq with rfl | rfl <;> decide
      · simp at h
    · simp at h
  all_goals
    simp only [Lexeme.token.injEq] at h
    obtain ⟨rfl, rfl, rfl⟩ := h
    exact ⟨by constructor, endsBefore_of_last rfl (by decide)⟩

theorem Lexeme.read_of_spelled {text rest : List Char} {t : Token} (ht : t.Spelled text)
    (h : EndsBefore text rest) : Lexeme.read (text ++ rest) = .token t text rest := by
  cases ht with
  | directiveOpen | directiveClose | interpolationOpen | interpolationClose => rfl
  | parenOpen | parenClose => rfl
  | @var c cs hc hcs =>
    have h' : EndsBefore (c :: cs) rest := h
    obtain ⟨htake, hdrop⟩ := takeWhile_name c hcs (isNameChar_of_isNameStart hc) h'
    simp [Lexeme.read, hc, isNameChar_of_isNameStart hc, htake, hdrop]
  | @name c cs hc hcs =>
    obtain ⟨htake, hdrop⟩ := takeWhile_name c hcs (isNameChar_of_isNameStart hc) h
    have hne : ∀ d, isNameStart d = false → c ≠ d := by
      rintro d hd rfl
      simp [hc] at hd
    simp [Lexeme.read, hc, htake, hdrop, hne '[' rfl, hne '%' rfl, hne ']' rfl,
      hne '(' rfl, hne ')' rfl, hne '$' rfl]
  | @string q body hq hb =>
    have hr : Quoted.read q (body ++ q :: rest) = .closed body rest := by
      refine (Quoted.read_eq_closed_iff ?_).2 ⟨hb, rfl⟩
      rcases hq with rfl | rfl <;> decide
    rcases hq with rfl | rfl <;> simp [Lexeme.read, isNameStart, hr]

/-- Text that no token begins with is at the beginning of what is left. -/
theorem Lexeme.prefix_of_unknown {cs found : List Char} (h : Lexeme.read cs = .unknown found) :
    found <+: cs := by
  unfold Lexeme.read at h
  split at h
  case h_1 =>
    cases h
    exact List.nil_prefix
  case h_6 c cs _ _ _ _ =>
    split at h
    · cases h
    split at h
    · cases h
    split at h
    · split at h
      · cases h
      · cases h
        exact List.prefix_append [c] cs
    split at h
    · cases h
    split at h
    · split at h
      · cases h
      · next run hr =>
        cases h
        exact (List.prefix_append_right_inj [c]).2 (Quoted.prefix_of_unclosed hr)
    · cases h
      exact List.prefix_append [c] cs
  all_goals cases h

/-- **What is read is a text of the token, as long as it goes.** -/
theorem Lexeme.read_eq_token_iff {cs text rest : List Char} {t : Token} :
    Lexeme.read cs = .token t text rest ↔
      cs = text ++ rest ∧ t.Spelled text ∧ EndsBefore text rest := by
  constructor
  · exact fun h => ⟨(Lexeme.read_append h).symm, Lexeme.spelled_of_read h⟩
  · rintro ⟨rfl, ht, h⟩
    exact Lexeme.read_of_spelled ht h

end Stencil
