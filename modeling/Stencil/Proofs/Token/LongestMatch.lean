import Stencil.Proofs.Token.Lexeme

/-!
# The longest match

Each token has a pattern (`Token.Matches`). The patterns overlap: a name may begin with another
name, or with a keyword, and the pattern of a name matches the keywords too. Two rules decide: the
longest match is taken, and of two that are equally long the one that is no plain name
(`Token.IsLongest`).

The reader never compares two matches. It looks at the first character and goes on as far as it
can. It is shown here to follow the two rules all the same (`Lexeme.read_eq_token_iff_isLongest`).
The idea is that a match which is not read can only be a name that has been cut off: reading on to
the end of the name gives a match that is read, and there is only one of those.
-/

namespace Stencil

/-! ### The patterns -/

/-- The text `body` between two quotes `q` stands for `value`: a pair of a backslash and another
character for the second of the two, every other character for itself. -/
inductive Quoted.StandsFor (q : Char) : List Char → List Char → Prop where
  /-- Nothing. -/
  | nil : StandsFor q [] []
  /-- A backslash and the character it protects. -/
  | escape {c : Char} {cs vs : List Char} (hc : c ≠ '\n') (h : StandsFor q cs vs) :
      StandsFor q ('\\' :: c :: cs) (c :: vs)
  /-- A character that stands for itself. -/
  | plain {c : Char} {cs vs : List Char} (hb : c ≠ '\\') (hq : c ≠ q) (h : StandsFor q cs vs) :
      StandsFor q (c :: cs) (c :: vs)

theorem Quoted.Body.standsFor {q : Char} {body : List Char} (h : Quoted.Body q body) :
    Quoted.StandsFor q body (unescape body) := by
  induction h with
  | nil => exact .nil
  | escape hc _ ih => exact .escape hc ih
  | @plain c cs hb hq _ ih =>
    have : unescape (c :: cs) = c :: unescape cs := by simp [unescape, hb]
    rw [this]
    exact .plain hb hq ih

theorem Quoted.StandsFor.body {q : Char} {body value : List Char}
    (h : Quoted.StandsFor q body value) : Quoted.Body q body ∧ value = unescape body := by
  induction h with
  | nil => exact ⟨.nil, rfl⟩
  | escape hc _ ih => exact ⟨.escape hc ih.1, by rw [unescape, ← ih.2]⟩
  | plain hb hq _ ih => exact ⟨.plain hb hq ih.1, by simp [unescape, hb, ← ih.2]⟩

namespace Token

/-- The pattern of each token. -/
inductive Matches : Token → List Char → Prop where
  /-- `[%`. -/
  | directiveOpen : Matches .directiveOpen ['[', '%']
  /-- `%]`. -/
  | directiveClose : Matches .directiveClose ['%', ']']
  /-- `[[`. -/
  | interpolationOpen : Matches .interpolationOpen ['[', '[']
  /-- `]]`. -/
  | interpolationClose : Matches .interpolationClose [']', ']']
  /-- A keyword. -/
  | keyword (k : Keyword) : Matches (.keyword k) k.word.toList
  /-- `not`. -/
  | notOp : Matches .notOp ['n', 'o', 't']
  /-- `and`. -/
  | andOp : Matches .andOp ['a', 'n', 'd']
  /-- `or`. -/
  | orOp : Matches .orOp ['o', 'r']
  /-- `(`. -/
  | parenOpen : Matches .parenOpen ['(']
  /-- `)`. -/
  | parenClose : Matches .parenClose [')']
  /-- A name after a `$`. -/
  | var {c : Char} {cs : List Char} (hc : isNameStart c) (hcs : ∀ d ∈ cs, isNameChar d) :
      Matches (.var (String.ofList (c :: cs))) ('$' :: c :: cs)
  /-- A name, be it a keyword or not. -/
  | ident {c : Char} {cs : List Char} (hc : isNameStart c) (hcs : ∀ d ∈ cs, isNameChar d) :
      Matches (.ident (String.ofList (c :: cs))) (c :: cs)
  /-- A string between two quotes. -/
  | string {q : Char} {body value : List Char} (hq : q = '\x22' ∨ q = '\x27')
      (h : Quoted.StandsFor q body value) :
      Matches (.string (String.ofList value)) (q :: body ++ [q])

/-- Of two tokens that the same text matches, `u` gives way to `t`: it is the same token, or a plain
name where `t` is none. -/
def GivesWay (u t : Token) : Prop :=
  u = t ∨ (∃ name, u = .ident name) ∧ ∀ name, t ≠ .ident name

/-- `text` is the longest match at the head of `cs`, and `t` the token it is taken for. -/
structure IsLongest (t : Token) (text cs : List Char) : Prop where
  /-- The pattern of the token matches. -/
  of_pattern : t.Matches text
  /-- The match is at the head. -/
  at_head : text <+: cs
  /-- No pattern matches more. -/
  longest : ∀ {u : Token} {other : List Char}, u.Matches other → other <+: cs →
    other.length ≤ text.length
  /-- A keyword or an operator goes before a plain name. -/
  first : ∀ {u : Token}, u.Matches text → u.GivesWay t

/-! ### The patterns and the texts that are read -/

theorem matches_ofName {c : Char} {cs : List Char} (hc : isNameStart c)
    (hcs : ∀ d ∈ cs, isNameChar d) : (ofName (String.ofList (c :: cs))).Matches (c :: cs) := by
  have htext : ∀ {word : String}, String.ofList (c :: cs) = word → c :: cs = word.toList := by
    rintro word rfl
    rw [String.toList_ofList]
  unfold ofName
  split_ifs with h₁ h₂ h₃ h₄ h₅ h₆ h₇ h₈
  · exact htext h₁ ▸ .keyword .ifK
  · exact htext h₂ ▸ .keyword .elifK
  · exact htext h₃ ▸ .keyword .elseK
  · exact htext h₄ ▸ .keyword .endifK
  · exact htext h₅ ▸ .keyword .includeK
  · exact htext h₆ ▸ .notOp
  · exact htext h₇ ▸ .andOp
  · exact htext h₈ ▸ .orOp
  · exact .ident hc hcs

theorem Spelled.of_pattern {t : Token} {text : List Char} (h : t.Spelled text) :
    t.Matches text := by
  cases h with
  | name hc hcs => exact matches_ofName hc hcs
  | var hc hcs => exact .var hc hcs
  | string hq hb => exact .string hq hb.standsFor
  | _ => constructor

/-- A text that a pattern matches is read as that token, or as one that a plain name gives way
to. -/
theorem Matches.exists_spelled {u : Token} {text : List Char} (h : u.Matches text) :
    ∃ t, t.Spelled text ∧ u.GivesWay t := by
  cases h with
  | directiveOpen => exact ⟨_, .directiveOpen, .inl rfl⟩
  | directiveClose => exact ⟨_, .directiveClose, .inl rfl⟩
  | interpolationOpen => exact ⟨_, .interpolationOpen, .inl rfl⟩
  | interpolationClose => exact ⟨_, .interpolationClose, .inl rfl⟩
  | parenOpen => exact ⟨_, .parenOpen, .inl rfl⟩
  | parenClose => exact ⟨_, .parenClose, .inl rfl⟩
  | keyword k => exact ⟨_, spelled_keyword k, .inl rfl⟩
  | notOp => exact ⟨_, @spelled_word 'n' ['o', 't'] rfl rfl, .inl rfl⟩
  | andOp => exact ⟨_, @spelled_word 'a' ['n', 'd'] rfl rfl, .inl rfl⟩
  | orOp => exact ⟨_, @spelled_word 'o' ['r'] rfl rfl, .inl rfl⟩
  | var hc hcs => exact ⟨_, .var hc hcs, .inl rfl⟩
  | @ident c cs hc hcs =>
    refine ⟨_, .name hc hcs, ?_⟩
    by_cases h : ∃ name, ofName (String.ofList (c :: cs)) = .ident name
    · obtain ⟨name, h⟩ := h
      refine .inl ?_
      revert h
      unfold ofName
      split_ifs <;> simp
    · exact .inr ⟨⟨_, rfl⟩, not_exists.1 h⟩
  | string hq h =>
    obtain ⟨hb, rfl⟩ := h.body
    exact ⟨_, .string hq hb, .inl rfl⟩

/-! ### Reading on to the end of a name -/

theorem forall_mem_append_takeWhile {cs : List Char} (h : ∀ d ∈ cs, isNameChar d)
    (rest : List Char) : ∀ d ∈ cs ++ rest.takeWhile isNameChar, isNameChar d := by
  intro d hd
  rcases List.mem_append.1 hd with hd | hd
  · exact h d hd
  · exact List.mem_takeWhile_imp hd

/-- A text of a token goes on to one that is not cut off: a name to where its characters end, any
other text not at all. -/
theorem Spelled.exists_extension {t : Token} {text : List Char} (h : t.Spelled text)
    (rest : List Char) :
    ∃ u more rest', rest = more ++ rest' ∧ Spelled u (text ++ more) ∧
      EndsBefore (text ++ more) rest' := by
  have hwhole : ∀ {a : Char}, text.getLast? = some a → isNameChar a = false →
      ∃ u more rest', rest = more ++ rest' ∧ Spelled u (text ++ more) ∧
        EndsBefore (text ++ more) rest' := by
    intro a ha hn
    refine ⟨t, [], rest, rfl, by rwa [List.append_nil], ?_⟩
    exact endsBefore_of_last (by rwa [List.append_nil]) hn
  have hsplit := (List.takeWhile_append_dropWhile (p := isNameChar) (l := rest)).symm
  cases h with
  | var hc hcs =>
    exact ⟨_, _, _, hsplit, .var hc (forall_mem_append_takeWhile hcs rest),
      endsBefore_dropWhile _ rest⟩
  | name hc hcs =>
    exact ⟨_, _, _, hsplit, .name hc (forall_mem_append_takeWhile hcs rest),
      endsBefore_dropWhile _ rest⟩
  | string hq hb =>
    refine hwhole List.getLast?_concat ?_
    rcases hq with rfl | rfl <;> decide
  | _ => exact hwhole rfl (by decide)

/-- A text that is read and one that begins at the same place: the second is no longer, since it
goes on to the first. -/
theorem Spelled.length_le {t u : Token} {text other rest : List Char} (ht : t.Spelled text)
    (he : EndsBefore text rest) (hu : u.Spelled other) (hp : other <+: text ++ rest) :
    other.length ≤ text.length := by
  obtain ⟨after, hafter⟩ := hp
  obtain ⟨v, more, rest', rfl, hv, hmore⟩ := hu.exists_extension after
  have hread := Lexeme.read_of_spelled hv hmore
  rw [List.append_assoc, hafter, Lexeme.read_of_spelled ht he] at hread
  cases hread
  rw [List.length_append]
  exact Nat.le_add_right _ _

theorem Spelled.isLongest {t : Token} {text rest : List Char} (ht : t.Spelled text)
    (he : EndsBefore text rest) : t.IsLongest text (text ++ rest) where
  of_pattern := ht.of_pattern
  at_head := List.prefix_append text rest
  longest := by
    intro u other hu hp
    obtain ⟨v, hv, -⟩ := hu.exists_spelled
    exact ht.length_le he hv hp
  first := by
    intro u hu
    obtain ⟨v, hv, hway⟩ := hu.exists_spelled
    have hread := Lexeme.read_of_spelled hv he
    rw [Lexeme.read_of_spelled ht he] at hread
    cases hread
    exact hway

/-- Two tokens that give way to each other are the same. -/
theorem GivesWay.antisymm {t u : Token} (h : u.GivesWay t) (h' : t.GivesWay u) : u = t := by
  obtain rfl | ⟨⟨name, hu⟩, -⟩ := h
  · rfl
  · obtain rfl | ⟨-, hne⟩ := h'
    · rfl
    · exact absurd hu (hne name)

end Token

/-- **The reader takes the longest match**, and of two that are equally long the one that is no
plain name. -/
theorem Lexeme.read_eq_token_iff_isLongest {cs text rest : List Char} {t : Token} :
    Lexeme.read cs = .token t text rest ↔ cs = text ++ rest ∧ t.IsLongest text cs := by
  constructor
  · intro h
    obtain ⟨rfl, ht, he⟩ := Lexeme.read_eq_token_iff.1 h
    exact ⟨rfl, ht.isLongest he⟩
  · rintro ⟨rfl, h⟩
    obtain ⟨u, hu, hway⟩ := h.of_pattern.exists_spelled
    -- what is read from here is no longer than the longest match, so it is that match
    obtain ⟨v, more, rest', rfl, hv, he⟩ := hu.exists_extension rest
    have hle := h.longest hv.of_pattern ⟨rest', List.append_assoc ..⟩
    rw [List.length_append] at hle
    obtain rfl : more = [] := List.eq_nil_of_length_eq_zero (by omega)
    rw [List.append_nil] at hv he
    have hread := Lexeme.read_of_spelled hu he
    obtain rfl := hway.antisymm (h.first hu.of_pattern)
    exact hread

end Stencil
