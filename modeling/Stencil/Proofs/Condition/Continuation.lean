import Stencil.Proofs.Condition.Grammar
import Stencil.Proofs.Token.Lexeme

/-!
# How a condition can go on

Tokens begin a condition if they and more tokens after them are one. Whether they do shows one
token after the other, and two things decide it: whether an operand is due, and how many
parentheses are open (`begins_iff`).

A condition that is none is blamed on the first token with which it cannot go on, or on its end if
there is no such token. What would have been accepted instead is listed in full: every token that
could have come, names apart, and the close marker where the condition could have ended
(`parse_blames`). Both are said of the texts in the message and in the list, in which tokens stand
as they are written.
-/

namespace Stencil

/-! ### Tokens in messages -/

namespace Token

/-- Whether a token is the only one of its kind. -/
def isFixed : Token → Bool
  | .keyword _ | .var _ | .ident _ | .string _ | .text _ => false
  | _ => true

/-- The text for a token in messages: as it is written, in quotes, with the kind before it if there
are several tokens of its kind. -/
inductive ShownAs : Token → String → Prop where
  /-- A marker, an operator or a parenthesis. -/
  | fixed {t : Token} {text : List Char} (ht : t.Spelled text) (hf : t.isFixed) :
      ShownAs t ("'" ++ String.ofList text ++ "'")
  /-- A keyword. -/
  | keyword {k : Keyword} {text : List Char} (ht : (Token.keyword k).Spelled text) :
      ShownAs (.keyword k) ("keyword '" ++ String.ofList text ++ "'")
  /-- A variable, with its `$`. -/
  | var (name : String) : ShownAs (.var name) ("variable '$" ++ name ++ "'")
  /-- An identifier. -/
  | ident (name : String) : ShownAs (.ident name) ("identifier '" ++ name ++ "'")
  /-- A string, without its escapes. -/
  | string (value : String) : ShownAs (.string value) ("string \"" ++ value ++ "\"")
  /-- Literal text is not repeated. -/
  | text (value : String) : ShownAs (.text value) "literal text"

theorem shownAs_describe (t : Token) : t.ShownAs t.describe := by
  cases t with
  | directiveOpen => exact .fixed .directiveOpen rfl
  | directiveClose => exact .fixed .directiveClose rfl
  | interpolationOpen => exact .fixed .interpolationOpen rfl
  | interpolationClose => exact .fixed .interpolationClose rfl
  | keyword k =>
    have h := ShownAs.keyword (spelled_keyword k)
    rwa [String.ofList_toList] at h
  | notOp => exact .fixed (@spelled_word 'n' ['o', 't'] rfl rfl) rfl
  | andOp => exact .fixed (@spelled_word 'a' ['n', 'd'] rfl rfl) rfl
  | orOp => exact .fixed (@spelled_word 'o' ['r'] rfl rfl) rfl
  | parenOpen => exact .fixed .parenOpen rfl
  | parenClose => exact .fixed .parenClose rfl
  | var name => exact .var name
  | ident name => exact .ident name
  | string value => exact .string value
  | text value => exact .text value

theorem eq_word_of_ofName {name : String} {k : Keyword} (h : ofName name = .keyword k) :
    name = k.word := by
  unfold ofName at h
  split_ifs at h <;> cases h <;> assumption

/-- There is one text for a token. -/
theorem shownAs_iff {t : Token} {shown : String} : t.ShownAs shown ↔ shown = t.describe := by
  constructor
  · intro h
    cases h with
    | fixed ht hf =>
      cases ht with
      | name =>
        -- the words for keywords and names are not fixed
        unfold ofName at hf ⊢
        split_ifs at hf ⊢ <;> simp_all [isFixed, describe]
      | var | string => cases hf
      | _ => rfl
    | @keyword k text ht =>
      generalize hk : Token.keyword k = t at ht
      cases ht with
      | name =>
        rw [← hk, eq_word_of_ofName hk.symm]
        rfl
      | _ => cases hk
    | _ => rfl
  · rintro rfl
    exact t.shownAs_describe

end Token

namespace Condition

/-- The tokens have a derivation. -/
def IsCondition (ts : List Token) : Prop := ∃ d : Disjunction, d.tokens = ts

/-- The tokens are a condition, or some more after them make them one. -/
def Begins (ts : List Token) : Prop := ∃ more, IsCondition (ts ++ more)

theorem IsCondition.begins {ts : List Token} (h : IsCondition ts) : Begins ts :=
  ⟨[], (List.append_nil ts).symm ▸ h⟩

theorem Begins.of_append {ts us : List Token} (h : Begins (ts ++ us)) : Begins ts := by
  obtain ⟨more, h⟩ := h
  exact ⟨us ++ more, List.append_assoc ts us more ▸ h⟩

/-! ### Points -/

/-- A point between two tokens of a condition. -/
structure Point where
  /-- Whether an operand is due. -/
  due : Bool
  /-- How many parentheses are open. -/
  depth : Nat
  deriving DecidableEq, Repr

namespace Point

/-- Before the first token. -/
def start : Point := ⟨true, 0⟩

/-- Where a condition can end. -/
def finish : Point := ⟨false, 0⟩

/-- The point after a token; none if the token cannot come. -/
def next : Point → Token → Option Point
  | ⟨true, depth⟩, .var _ => some ⟨false, depth⟩
  | ⟨true, depth⟩, .ident _ => some ⟨false, depth⟩
  | ⟨true, depth⟩, .notOp => some ⟨true, depth⟩
  | ⟨true, depth⟩, .parenOpen => some ⟨true, depth + 1⟩
  | ⟨false, depth⟩, .andOp => some ⟨true, depth⟩
  | ⟨false, depth⟩, .orOp => some ⟨true, depth⟩
  | ⟨false, depth + 1⟩, .parenClose => some ⟨false, depth⟩
  | _, _ => none

/-- The point after some tokens; none if one of them cannot come. -/
def after (p : Point) (ts : List Token) : Option Point := ts.foldlM next p

/-- What may come at a point, names apart. -/
def expected (p : Point) : List Expected :=
  if p.due then operandExpected else operatorExpected p.depth

/-- Tokens that take a point to the end of a condition. -/
def completion (p : Point) : List Token :=
  (if p.due then [.ident ""] else []) ++ List.replicate p.depth .parenClose

variable {p q : Point} {ts us : List Token} {t : Token}

theorem after_cons : p.after (t :: ts) = p.next t >>= fun q => q.after ts := rfl

theorem after_append : p.after (ts ++ us) = p.after ts >>= fun q => q.after us :=
  List.foldlM_append

theorem after_singleton : p.after [t] = p.next t := by
  rw [after_cons]
  cases p.next t <;> rfl

/-- Tokens that cannot all come have a first one that cannot. -/
theorem exists_stuck {ts : List (Spanned Token)} (h : p.after (ts.map (·.node)) = none) :
    ∃ before t more q, ts = before ++ t :: more ∧ p.after (before.map (·.node)) = some q ∧
      q.next t.node = none := by
  induction ts generalizing p with
  | nil => cases h
  | cons t ts ih =>
    cases hn : p.next t.node with
    | none => exact ⟨[], t, ts, p, rfl, rfl, hn⟩
    | some q =>
      rw [List.map_cons, after_cons, hn] at h
      obtain ⟨before, u, more, r, rfl, hb, hr⟩ := ih h
      exact ⟨t :: before, u, more, r, rfl, by rwa [List.map_cons, after_cons, hn], hr⟩

theorem after_completion (p : Point) : p.after p.completion = some finish := by
  obtain ⟨due, depth⟩ := p
  have hclose : ∀ depth, after ⟨false, depth⟩ (List.replicate depth .parenClose) = some finish := by
    intro depth
    induction depth with
    | zero => rfl
    | succ depth ih => exact ih
  cases due with
  | true => exact hclose depth
  | false => exact hclose depth

end Point

/-! ### The reader at a point -/

section

variable {ending : Span} {levels : List Level} {level : Level} {p q : Point} {t : Spanned Token}
  {ts : List (Spanned Token)}

/-- The reader goes on over a token that may come. -/
theorem read_next (h : p.next t.node = some q) (hl : levels.length = p.depth) (level : Level) :
    ∃ levels' level', levels'.length = q.depth ∧ ∀ ts, read ending levels level p.due (t :: ts) =
      read ending levels' level' q.due ts := by
  obtain ⟨node, span⟩ := t
  simp only [Point.next] at h
  split at h <;> cases h
  · exact ⟨_, _, hl, fun ts => read_name _ _ _ _ _ rfl⟩
  · exact ⟨_, _, hl, fun ts => read_name _ _ _ _ _ rfl⟩
  · exact ⟨_, _, hl, fun ts => read_not _ _ _ _ _⟩
  · exact ⟨level :: levels, _, congrArg Nat.succ hl, fun ts => read_open _ _ _ _ _⟩
  · exact ⟨_, _, hl, fun ts => read_and _ _ _ _ _⟩
  · exact ⟨_, _, hl, fun ts => read_or _ _ _ _ _⟩
  · obtain ⟨outer, levels, rfl⟩ := List.exists_cons_of_length_eq_add_one hl
    exact ⟨_, _, Nat.succ.inj hl, fun ts => read_close _ _ _ _ _ _⟩

/-- The reader stops at a token that cannot come, and says what could. -/
theorem read_stuck (h : p.next t.node = none) (hl : levels.length = p.depth) :
    read ending levels level p.due (t :: ts) =
      .error ⟨.unexpectedToken t.node p.expected, t.span⟩ := by
  obtain ⟨due, depth⟩ := p
  obtain ⟨node, span⟩ := t
  obtain rfl : levels.length = depth := hl
  cases due with
  | true =>
    rw [read]
    cases node <;> first | rfl | cases h
  | false =>
    cases levels <;> rw [read] <;> cases node <;> first | rfl | cases h

/-- Where the tokens run out, the reader is done or says what could come. -/
theorem read_out (hl : levels.length = p.depth) (hp : p ≠ .finish) :
    read ending levels level p.due [] = .error ⟨.unexpectedEnd p.expected, ending⟩ := by
  obtain ⟨due, depth⟩ := p
  obtain rfl : levels.length = depth := hl
  cases due with
  | true => rw [read]; rfl
  | false =>
    cases levels with
    | nil => exact absurd rfl hp
    | cons outer levels => rw [read]; rfl

/-- The reader goes on over tokens that may all come. -/
theorem read_after (h : p.after (ts.map (·.node)) = some q) (hl : levels.length = p.depth)
    (level : Level) :
    ∃ levels' level', levels'.length = q.depth ∧ ∀ more,
      read ending levels level p.due (ts ++ more) = read ending levels' level' q.due more := by
  induction ts generalizing p levels level with
  | nil =>
    cases h
    exact ⟨levels, level, hl, fun more => rfl⟩
  | cons t ts ih =>
    rw [List.map_cons, Point.after_cons] at h
    obtain ⟨r, hr, h⟩ := Option.bind_eq_some_iff.1 h
    obtain ⟨levels', level', hl', hread⟩ := read_next hr hl level
    obtain ⟨levels'', level'', hl'', hread'⟩ := ih h hl' level'
    exact ⟨levels'', level'', hl'', fun more => (hread _).trans (hread' more)⟩

/-- If the tokens may all come, the reader is done, or they run out too early. -/
theorem read_of_after_eq_some (h : Point.start.after (ts.map (·.node)) = some q) :
    (q = .finish ∧ ∃ c, read ending [] .empty true ts = .ok c) ∨
      q ≠ .finish ∧
        read ending [] .empty true ts = .error ⟨.unexpectedEnd q.expected, ending⟩ := by
  obtain ⟨levels, level, hl, hread⟩ := @read_after ending [] _ _ _ h rfl .empty
  have hts := hread []
  rw [List.append_nil] at hts
  by_cases hq : q = .finish
  · subst hq
    obtain rfl := List.length_eq_zero_iff.1 hl
    exact .inl ⟨rfl, _, hts.trans (read_end ending level)⟩
  · exact .inr ⟨hq, hts.trans (read_out hl hq)⟩

/-- If they may not, the reader stops at the first one that may not. -/
theorem read_of_after_eq_none (h : Point.start.after (ts.map (·.node)) = none) :
    ∃ before t more q, ts = before ++ t :: more ∧
      Point.start.after (before.map (·.node)) = some q ∧ q.next t.node = none ∧
      read ending [] .empty true ts = .error ⟨.unexpectedToken t.node q.expected, t.span⟩ := by
  obtain ⟨before, t, more, q, rfl, hb, hq⟩ := Point.exists_stuck h
  obtain ⟨levels, level, hl, hread⟩ := @read_after ending [] _ _ _ hb rfl .empty
  exact ⟨before, t, more, q, rfl, hb, hq, (hread _).trans (read_stuck hq hl)⟩

end

/-! ### How tokens can go on -/

section

variable {q : Point} {ts : List Token}

/-- **Tokens are a condition if they come to where one can end.** -/
theorem isCondition_iff : IsCondition ts ↔ Point.start.after ts = some .finish := by
  -- the reader decides it, wherever the tokens stand
  let spanned := ts.map fun t => (⟨t, ⟨0, 0⟩⟩ : Spanned Token)
  have hnodes : spanned.map (·.node) = ts := by simp [spanned, Function.comp_def]
  have hread : IsCondition ts ↔ ∃ c, read ⟨0, 0⟩ [] .empty true spanned = .ok c := by
    simp only [read_eq_ok_iff, hnodes, IsCondition]
    exact ⟨fun ⟨d, hd⟩ => ⟨_, d, hd, rfl⟩, fun ⟨_, d, hd, _⟩ => ⟨d, hd⟩⟩
  rw [hread, ← hnodes]
  cases h : Point.start.after (spanned.map (·.node)) with
  | none =>
    obtain ⟨_, _, _, _, _, _, _, herror⟩ := @read_of_after_eq_none ⟨0, 0⟩ _ h
    simp [herror]
  | some q =>
    obtain ⟨rfl, hok⟩ | ⟨hq, herror⟩ := @read_of_after_eq_some ⟨0, 0⟩ _ _ h
    · simp [hok]
    · simp [herror, hq]

/-- **Tokens begin a condition if each may come.** -/
theorem begins_iff : Begins ts ↔ ∃ q, Point.start.after ts = some q := by
  constructor
  · rintro ⟨more, h⟩
    rw [isCondition_iff, Point.after_append] at h
    obtain ⟨q, hq, -⟩ := Option.bind_eq_some_iff.1 h
    exact ⟨q, hq⟩
  · rintro ⟨q, hq⟩
    refine ⟨q.completion, ?_⟩
    rw [isCondition_iff, Point.after_append, hq]
    exact q.after_completion

/-- The tokens that can come next in a condition, names apart, with their texts in messages. -/
def continuations : List (Token × String) :=
  [(.notOp, "'not'"), (.parenOpen, "'('"), (.andOp, "'and'"), (.orOp, "'or'"),
    (.parenClose, "')'")]

/-- The list says how a condition that begins with the tokens `ts` can go on. -/
structure GoesOn (ts : List Token) (expected : List String) : Prop where
  /-- It lists tokens that can come next and the close marker, in this order, and none twice. -/
  sublist : expected.Sublist ["'not'", "'('", "'and'", "'or'", "')'", "'%]'"]
  /-- It lists a token exactly if it can come next. -/
  token_mem_iff : ∀ t text, (t, text) ∈ continuations → (text ∈ expected ↔ Begins (ts ++ [t]))
  /-- Names apart, no other token can come next. -/
  exists_text : ∀ t, (∀ name, t ≠ .var name ∧ t ≠ .ident name) → Begins (ts ++ [t]) →
    ∃ text, (t, text) ∈ continuations
  /-- It lists the close marker exactly if the condition can end. -/
  close_mem_iff : "'%]'" ∈ expected ↔ IsCondition ts

/-- The texts for what may come at a point. -/
def Point.shown (p : Point) : List String := p.expected.map Expected.describe

theorem Point.shown_sublist (q : Point) :
    q.shown.Sublist ["'not'", "'('", "'and'", "'or'", "')'", "'%]'"] := by
  obtain ⟨_ | _, _ | depth⟩ := q <;> simp [shown, expected, operandExpected, operatorExpected,
    Expected.describe, Token.describe]

/-- What may come at a point is listed there. -/
theorem Point.token_mem_shown_iff {t : Token} {text : String} (h : (t, text) ∈ continuations) :
    text ∈ q.shown ↔ ∃ r, q.next t = some r := by
  simp only [continuations, List.mem_cons, Prod.mk.injEq, List.not_mem_nil, or_false] at h
  obtain ⟨_ | _, _ | depth⟩ := q <;> obtain ⟨rfl, rfl⟩ | ⟨rfl, rfl⟩ | ⟨rfl, rfl⟩ | ⟨rfl, rfl⟩ |
    ⟨rfl, rfl⟩ := h <;> simp [shown, expected, operandExpected, operatorExpected, next,
    Expected.describe, Token.describe]

theorem Point.close_mem_shown_iff : "'%]'" ∈ q.shown ↔ q = finish := by
  obtain ⟨_ | _, _ | depth⟩ := q <;> simp [shown, expected, operandExpected, operatorExpected,
    finish, Expected.describe, Token.describe]

theorem Point.exists_text_of_next {r : Point} {t : Token}
    (hn : ∀ name, t ≠ .var name ∧ t ≠ .ident name) (h : q.next t = some r) :
    ∃ text, (t, text) ∈ continuations := by
  obtain ⟨_ | _, _ | depth⟩ := q <;> cases t <;> simp_all [next, continuations]

theorem goesOn_of_after (h : Point.start.after ts = some q) : GoesOn ts q.shown := by
  have hnext : ∀ t, Begins (ts ++ [t]) ↔ ∃ r, q.next t = some r := by
    intro t
    rw [begins_iff, Point.after_append, h]
    exact exists_congr fun r => by rw [← Point.after_singleton]; rfl
  refine ⟨q.shown_sublist, fun t text ht => ?_, fun t hn ht => ?_, ?_⟩
  · rw [hnext]
    exact Point.token_mem_shown_iff ht
  · obtain ⟨r, hr⟩ := (hnext t).1 ht
    exact Point.exists_text_of_next hn hr
  · rw [Point.close_mem_shown_iff, isCondition_iff, h, Option.some.injEq]

end

/-! ### Blame -/

/-- What a bad condition is blamed on. -/
inductive BlamedOn (args : List (Spanned Token)) (e : ParseError) : Prop where
  /-- The first token with which the tokens so far begin no condition. -/
  | token (before : List (Spanned Token)) (t : Spanned Token) (after : List (Spanned Token))
      (hargs : args = before ++ t :: after) (hb : Begins (before.map (·.node)))
      (hn : ¬ Begins (before.map (·.node) ++ [t.node]))
      (hc : e.cause = .unexpectedToken t.node e.cause.expected) (hspan : e.span = t.span)
      (hm : ∃ shown, t.node.ShownAs shown ∧ e.message = "Unexpected " ++ shown)
      (he : GoesOn (before.map (·.node)) e.expected)
  /-- The end, where all the tokens begin a condition. -/
  | ending (hb : Begins (args.map (·.node)))
      (hc : e.cause = .unexpectedEnd e.cause.expected)
      (hm : e.message = "Unexpected end of directive")
      (he : GoesOn (args.map (·.node)) e.expected)

/-- **A bad condition is blamed on its first impossible token**, or on its end if it has none, and
all that could have come there is listed. -/
theorem parse_blames {limit : Nat} {keyword : Keyword} {head : Span} {closing : Nat}
    {args : List (Spanned Token)} (hne : args ≠ []) (hn : NestWithin limit (args.map (·.node)))
    (hc : ¬ IsCondition (args.map (·.node))) :
    ∃ e, parse limit keyword head closing args = .error e ∧ BlamedOn args e := by
  obtain ⟨extent, hextent⟩ : ∃ extent, extent? args = some extent := by
    cases args with
    | nil => exact absurd rfl hne
    | cons t ts => exact ⟨_, rfl⟩
  have hparse {e} (h : read ⟨closing, extent.stop⟩ [] .empty true args = .error e) :
      parse limit keyword head closing args = .error e := by
    simp only [parse, hextent, firstTooDeep_zero_eq_none_iff.2 hn, h, error_bind]
  cases h : Point.start.after (args.map (·.node)) with
  | none =>
    obtain ⟨before, t, more, q, hargs, hb, hq, hread⟩ := read_of_after_eq_none h
    refine ⟨_, hparse hread, .token before t more hargs (begins_iff.2 ⟨q, hb⟩) ?_ rfl rfl
      ⟨_, Token.shownAs_iff.2 rfl, rfl⟩ (goesOn_of_after hb)⟩
    rw [begins_iff, Point.after_append, hb]
    rintro ⟨r, hr⟩
    cases (Point.after_singleton.symm.trans hr).symm.trans hq
  | some q =>
    obtain ⟨rfl, -⟩ | ⟨-, hread⟩ := read_of_after_eq_some h
    · exact absurd (isCondition_iff.2 h) hc
    · exact ⟨_, hparse hread, .ending (begins_iff.2 ⟨q, h⟩) rfl rfl (goesOn_of_after h)⟩

/-- In `not (a or)` the parenthesis closes where an operand is due. -/
theorem parse_blames_closing :
    let args : List (Spanned Token) := [⟨.notOp, ⟨6, 9⟩⟩, ⟨.parenOpen, ⟨10, 11⟩⟩,
      ⟨.ident "a", ⟨11, 12⟩⟩, ⟨.orOp, ⟨13, 15⟩⟩, ⟨.parenClose, ⟨15, 16⟩⟩]
    let e : ParseError := ⟨.unexpectedToken .parenClose operandExpected, ⟨15, 16⟩⟩
    args ≠ [] ∧ NestWithin 1 (args.map (·.node)) ∧ ¬ IsCondition (args.map (·.node)) ∧
      parse 1 .ifK ⟨3, 5⟩ 17 args = .error e ∧ e.message = "Unexpected ')'" ∧
      e.expected = ["'not'", "'('"] ∧ BlamedOn args e := by
  intro args e
  have hne : args ≠ [] := List.cons_ne_nil _ _
  have hn : NestWithin 1 (args.map (·.node)) := firstTooDeep_zero_eq_none_iff.1 (by decide)
  have hc : ¬ IsCondition (args.map (·.node)) := by
    rw [isCondition_iff]
    decide
  have hparse : parse 1 .ifK ⟨3, 5⟩ 17 args = .error e := by cbv
  obtain ⟨e', he, hblamed⟩ := @parse_blames 1 .ifK ⟨3, 5⟩ 17 args hne hn hc
  cases hparse.symm.trans he
  exact ⟨hne, hn, hc, hparse, by decide, by decide, hblamed⟩

end Condition

end Stencil
