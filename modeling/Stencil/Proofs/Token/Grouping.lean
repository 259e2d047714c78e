import Stencil.Proofs.Document.Blame
import Stencil.Proofs.Token.Coverage

/-!
# Grouping tokens

Items are made from tokens one after the other. A text is an item, and an opening marker makes one
together with the tokens up to its close marker. For a token that begins no item, and for a construct
whose close marker is missing, there are fallbacks. The scanner never leads to them. Wherever grouping
begins an item, whole texts and constructs are behind it and ahead of it (`Comes.splits`), so that it
finds a text, or a construct with both its markers, and the two bytes before the end of the construct
are its close marker (`grouping_regular`).
-/

namespace Stencil

/-- Whether the cause is a token that begins no item. -/
def ParseError.Cause.isStray : Cause → Bool
  | .strayToken _ => true
  | _ => false

theorem Token.eq_closeText_of_matches {k : Construct} {text : List Char}
    (h : k.closeToken.Matches text) : text = k.closeText := by
  cases k with
  | directive =>
    cases h with
    | directiveClose => rfl
  | interpolation =>
    cases h with
    | interpolationClose => rfl

namespace Item

variable {source : List Char} {limit : Nat} {ts us : List (Spanned Token)} {e : ParseError}

/-! ### Where items begin -/

/-- Grouping the tokens `ts` comes to the tokens `us`, to begin an item there. -/
inductive Comes (ts : List (Spanned Token)) : List (Spanned Token) → Prop where
  /-- It begins with all of them. -/
  | start : Comes ts ts
  /-- A text is an item. -/
  | text {s : String} {span : Span} {us : List (Spanned Token)}
      (h : Comes ts (⟨.text s, span⟩ :: us)) : Comes ts us
  /-- A construct is an item, wherever its end is found. -/
  | construct {t : Spanned Token} {us : List (Spanned Token)} {k : Construct}
      (h : Comes ts (t :: us)) (hk : opened? t.node = some k) :
      Comes ts (untilClose k.closeToken t.span.stop us).2.2

theorem Comes.trans {vs : List (Spanned Token)} (h : Comes ts us) (h' : Comes us vs) :
    Comes ts vs := by
  induction h' with
  | start => exact h
  | text _ ih => exact ih.text
  | construct _ hk ih => exact ih.construct hk

/-- The item that begins the tokens cannot be made. -/
inductive Refused (limit : Nat) : List (Spanned Token) → ParseError → Prop where
  /-- No item begins with the token. -/
  | stray {t : Spanned Token} {us : List (Spanned Token)} (ht : ∀ s, t.node ≠ .text s)
      (hk : opened? t.node = none) : Refused limit (t :: us) ⟨.strayToken t.node, t.span⟩
  /-- The construct holds what it may not hold. -/
  | construct {t : Spanned Token} {us : List (Spanned Token)} {k : Construct} {e : ParseError}
      (hk : opened? t.node = some k)
      (h : construct? limit ⟨t.span.start, (untilClose k.closeToken t.span.stop us).2.1⟩
        (untilClose k.closeToken t.span.stop us).1 k = .error e) : Refused limit (t :: us) e

/-- A construct is made of the tokens up to its end, and grouping goes on behind it. -/
theorem ofTokens_of_opened {t : Spanned Token} {k : Construct} (hk : opened? t.node = some k)
    (limit : Nat) (ts : List (Spanned Token)) :
    ofTokens limit (t :: ts) =
      construct? limit ⟨t.span.start, (untilClose k.closeToken t.span.stop ts).2.1⟩
        (untilClose k.closeToken t.span.stop ts).1 k >>= fun item =>
          (⟨item, t.span.start, (untilClose k.closeToken t.span.stop ts).2.1⟩ :: ·) <$>
            ofTokens limit (untilClose k.closeToken t.span.stop ts).2.2 := by
  rw [ofTokens]
  split
  · next ht =>
    rw [ht] at hk
    cases hk
  · next k' _ hk' _ =>
    obtain rfl := Option.some.inj (hk.symm.trans hk')
    simp only [bind_pure_comp]
  · next hk' _ =>
    rw [hk] at hk'
    cases hk'

theorem ofTokens_of_not_opened {t : Spanned Token} (ht : ∀ s, t.node ≠ .text s)
    (hk : opened? t.node = none) (limit : Nat) (ts : List (Spanned Token)) :
    ofTokens limit (t :: ts) = .error ⟨.strayToken t.node, t.span⟩ := by
  rw [ofTokens]
  split
  · next h => exact absurd h (ht _)
  · next hk' _ =>
    rw [hk] at hk'
    cases hk'
  · rfl

/-- **Grouping fails at an item that it comes to**, whatever the tokens are. -/
theorem exists_refused_of_ofTokens (h : ofTokens limit ts = .error e) :
    ∃ us, Comes ts us ∧ Refused limit us e := by
  induction ts using ofTokens.induct with
  | case1 =>
    rw [ofTokens_nil] at h
    cases h
  | case2 t ts value ht ih =>
    obtain ⟨_, span⟩ := t
    cases ht
    rw [ofTokens_text] at h
    obtain ⟨us, hus, hr⟩ := ih (map_eq_error_iff.1 h)
    exact ⟨us, (Comes.text .start).trans hus, hr⟩
  | case3 t ts k hk _ _ ih =>
    rw [ofTokens_of_opened hk] at h
    obtain h | ⟨item, -, h⟩ := bind_eq_error_iff.1 h
    · exact ⟨_, .start, .construct hk h⟩
    · obtain ⟨us, hus, hr⟩ := ih (map_eq_error_iff.1 h)
      exact ⟨us, (Comes.construct .start hk).trans hus, hr⟩
  | case4 t ts hk ht =>
    rw [ofTokens_of_not_opened ht hk] at h
    cases h
    exact ⟨_, .start, .stray ht hk⟩

/-! ### No construct is refused as a stray token -/

theorem isStray_eq_false_of_alone {keyword : Keyword} {d : Directive} {args : List (Spanned Token)}
    (h : alone keyword d args = .error e) : e.cause.isStray = false := by
  unfold alone at h
  split at h <;> cases h
  rfl

theorem isStray_eq_false_of_condition {keyword : Keyword} {head : Span} {closing : Nat}
    {args : List (Spanned Token)} (h : Condition.parse limit keyword head closing args = .error e) :
    e.cause.isStray = false := by
  unfold Condition.parse at h
  split at h
  · cases h
    rfl
  split at h
  · cases h
    rfl
  · obtain h | ⟨c, -, h⟩ := bind_eq_error_iff.1 h
    · obtain ⟨expected, rfl⟩ | ⟨t, -, expected, rfl⟩ := Condition.read_eq_error h
      · rfl
      · rfl
    · cases h

theorem isStray_eq_false_of_directive? {full : Span} {inner : List (Spanned Token)}
    (h : directive? limit full inner = .error e) : e.cause.isStray = false := by
  cases inner with
  | nil =>
    cases h
    rfl
  | cons head args =>
    simp only [directive?] at h
    split at h
    · exact isStray_eq_false_of_condition (map_eq_error_iff.1 h)
    · exact isStray_eq_false_of_condition (map_eq_error_iff.1 h)
    · exact isStray_eq_false_of_alone h
    · exact isStray_eq_false_of_alone h
    · split at h <;> cases h
      rfl
    · cases h
      rfl

theorem isStray_eq_false_of_construct? {full : Span} {inner : List (Spanned Token)} {k : Construct}
    (h : construct? limit full inner k = .error e) : e.cause.isStray = false := by
  cases k with
  | interpolation =>
    simp only [construct?] at h
    split at h <;> cases h
    rfl
  | directive => exact isStray_eq_false_of_directive? (map_eq_error_iff.1 h)

/-! ### Items of bracketed tokens -/

theorem opened?_openToken (k : Construct) : opened? k.openToken = some k := by
  cases k <;> rfl

/-- What is left of a construct ends at its close marker. -/
theorem exists_untilClose {k : Construct} (h : Token.Closes k ts) (stop : Nat) :
    ∃ inner closing more, ts = inner ++ ⟨k.closeToken, closing⟩ :: more ∧
      (∀ t ∈ inner, Token.Inside k t.node) ∧
      closing.stop = closing.start + Construct.markSize ∧ Token.Bracketed more ∧
      untilClose k.closeToken stop ts = (inner, closing.stop, more) := by
  obtain ⟨inner, closing, more, rfl, hi, hw, hm⟩ := h
  exact ⟨inner, closing, more, rfl, hi, hw, hm,
    untilClose_append (fun t ht => (hi t ht).1) closing stop more⟩

/-- Where an item begins, whole texts and constructs are behind it and ahead of it. -/
theorem Comes.splits (h : Comes ts us) (hb : Token.Bracketed ts) :
    ∃ before, ts = before ++ us ∧ Token.Bracketed before ∧ Token.Bracketed us := by
  induction h with
  | start => exact ⟨[], rfl, .nil, hb⟩
  | @text s span us _ ih =>
    obtain ⟨before, rfl, hbefore, hus⟩ := ih
    obtain ⟨-, hmore⟩ | ⟨k, hk, -⟩ := hus.cons_cases
    · refine ⟨before ++ [⟨.text s, span⟩], ?_, hbefore.append (.text .nil), hmore⟩
      rw [List.append_assoc, List.singleton_append]
    · cases k <;> cases hk
  | @construct t us k _ hk ih =>
    obtain ⟨before, rfl, hbefore, hus⟩ := ih
    obtain ⟨⟨s, hs⟩, -⟩ | ⟨k', hk', hcloses⟩ := hus.cons_cases
    · rw [hs] at hk
      cases hk
    · obtain ⟨_, opening⟩ := t
      obtain rfl : _ = k'.openToken := hk'
      obtain rfl := Option.some.inj ((opened?_openToken k').symm.trans hk)
      obtain ⟨inner, closing, more, rfl, hi, hw, hm, hu⟩ := exists_untilClose hcloses opening.stop
      refine ⟨before ++ ⟨k'.openToken, opening⟩ :: (inner ++ [⟨k'.closeToken, closing⟩]), ?_,
        hbefore.append (.construct hi hw .nil), ?_⟩
      · rw [hu]
        simp only [List.append_assoc, List.cons_append, List.nil_append]
      · rw [hu]
        exact hm

/-- What grouping finds where it begins an item, or is over: a text, or a construct with both its
markers. -/
inductive Regular (source : List Char) : List (Spanned Token) → Prop where
  /-- There are no more tokens. -/
  | done : Regular source []
  /-- A text. -/
  | text {s : String} {span : Span} {us : List (Spanned Token)} :
      Regular source (⟨.text s, span⟩ :: us)
  /-- A construct. The tokens are taken up to its close marker, and the offset where they end, less
  the width of a marker, is where this marker starts. -/
  | construct {k : Construct} {opening closing : Span} {inner us : List (Spanned Token)}
      (hi : ∀ t ∈ inner, Token.Inside k t.node)
      (hu : untilClose k.closeToken opening.stop (inner ++ ⟨k.closeToken, closing⟩ :: us) =
        (inner, closing.stop, us))
      (hle : Construct.markSize ≤ closing.stop)
      (hs : closing.stop - Construct.markSize = closing.start)
      (hc : ∃ rest, closing.Shows source k.closeText rest) :
      Regular source (⟨k.openToken, opening⟩ :: (inner ++ ⟨k.closeToken, closing⟩ :: us))

theorem Regular.isStray_eq_false (h : Regular source us) (hr : Refused limit us e) :
    e.cause.isStray = false := by
  cases hr with
  | stray ht hk =>
    cases h with
    | text => exact absurd rfl (ht _)
    | @construct k =>
      rw [opened?_openToken k] at hk
      cases hk
  | construct _ h => exact isStray_eq_false_of_construct? h

/-- The tokens of a text are regular behind whole texts and constructs. -/
theorem regular_of_splits {before : List (Spanned Token)}
    (hs : Token.Scans .outside 0 source (before ++ us)) (hbefore : Token.Bracketed before)
    (hus : Token.Bracketed us) : Regular source us := by
  cases us with
  | nil => exact .done
  | cons t us =>
    obtain ⟨⟨s, hnode⟩, -⟩ | ⟨k, hk, hcloses⟩ := hus.cons_cases
    · obtain ⟨_, span⟩ := t
      obtain rfl : _ = Token.text s := hnode
      exact .text
    · obtain ⟨_, opening⟩ := t
      obtain rfl : _ = k.openToken := hk
      obtain ⟨inner, closing, more, rfl, hi, hw, -, hu⟩ := exists_untilClose hcloses opening.stop
      have hfilled := hs.filled_of_encloses ⟨before, more, hbefore, hi, rfl⟩
      obtain ⟨text, rest, hshows, hlongest⟩ := hfilled.longest ⟨k.closeToken, closing⟩
        (List.mem_append_right inner List.mem_cons_self)
      obtain rfl := Token.eq_closeText_of_matches hlongest.of_pattern
      refine .construct hi hu ?_ ?_ ⟨rest, hshows⟩
      · rw [hw]
        exact Nat.le_add_left _ _
      · rw [hw, Nat.add_sub_cancel]

/-- **The tokens of a template are whole texts and constructs, and grouping them needs no fallback.**
Wherever it begins an item there is a text or a construct with both its markers, the offset of the
close marker is found by going back from the end of the construct, and no error is blamed on a token
that begins no item. -/
theorem grouping_regular {source : String} (h : Token.scan source = .ok ts) :
    Token.Bracketed ts ∧ (∀ us, Comes ts us → Regular source.toList us) ∧
      ∀ limit e, ofTokens limit ts = .error e → e.cause.isStray = false := by
  have hs : Token.Scans .outside 0 source.toList ts := Token.scanFrom_eq_ok_iff.1 h
  have hregular : ∀ us, Comes ts us → Regular source.toList us := by
    intro us hus
    obtain ⟨before, rfl, hbefore, hrest⟩ := hus.splits hs.bracketed
    exact regular_of_splits hs hbefore hrest
  refine ⟨hs.bracketed, hregular, fun limit e he => ?_⟩
  obtain ⟨us, hus, hr⟩ := exists_refused_of_ofTokens he
  exact (hregular us hus).isStray_eq_false hr

/-- The close marker of a directive inside an interpolation, and the other way round in quotes. -/
theorem grouping_regular_other_markers :
    ∃ ts, Token.scan "[[ %] $x ]]é[% include ']]' %]" = .ok ts ∧
      ts.map (·.node) = [.interpolationOpen, .directiveClose, .var "x", .interpolationClose,
        .text "é", .directiveOpen, .keyword .includeK, .string "]]", .directiveClose] ∧
      Regular "[[ %] $x ]]é[% include ']]' %]".toList (ts.drop 5) ∧
      ofTokens 1 ts = .error ⟨.invalidInterpolation, ⟨0, 11⟩⟩ := by
  have h : Token.scan "[[ %] $x ]]é[% include ']]' %]" = .ok
      [⟨.interpolationOpen, 0, 2⟩, ⟨.directiveClose, 3, 5⟩, ⟨.var "x", 6, 8⟩,
        ⟨.interpolationClose, 9, 11⟩, ⟨.text "é", 11, 13⟩, ⟨.directiveOpen, 13, 15⟩,
        ⟨.keyword .includeK, 16, 23⟩, ⟨.string "]]", 24, 28⟩, ⟨.directiveClose, 29, 31⟩] := by cbv
  obtain ⟨-, hregular, -⟩ := grouping_regular h
  refine ⟨_, h, rfl, hregular _ (@Comes.text _ "é" ⟨11, 13⟩ _ ?_), by cbv⟩
  exact @Comes.construct _ ⟨.interpolationOpen, 0, 2⟩ _ .interpolation .start rfl

end Item

end Stencil
