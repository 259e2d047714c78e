import Mathlib
import Stencil.Proofs.Token.Cutting
import Stencil.Proofs.Token.LongestMatch
import Stencil.Proofs.Token.Places

/-!
# The tokens account for the whole text

Nothing of a scanned text is lost and nothing is read twice. The tokens stand on disjoint ranges,
one behind the other, and each is what its pattern makes of the text on its range; the bytes
between two tokens are blanks inside a construct, and inside a construct every token is the longest
match where it stands (`Token.scan_accounts`).

The tokens are taken apart into whole texts and constructs, as they are bracketed. A text covers
its range. For a construct the scanner is followed token by token from the opening marker to the
close marker (`Scans.filled`).
-/

namespace Stencil

/-! ### Places in a text -/

namespace Text

theorem before?_eq_some_iff {cs before : List Char} {n : Nat} :
    before? cs n = some before ↔ before <+: cs ∧ size before = n := by
  constructor
  · intro h
    fun_induction before? cs n generalizing before with
    | case1 =>
      cases h
      exact ⟨List.nil_prefix, rfl⟩
    | case2 => cases h
    | case3 c cs n hle ih =>
      obtain ⟨before, hb, rfl⟩ := Option.map_eq_some_iff.1 h
      obtain ⟨hp, hn⟩ := ih hb
      refine ⟨List.cons_prefix_cons.2 ⟨rfl, hp⟩, ?_⟩
      rw [size_cons, hn]
      omega
    | case4 => cases h
  · rintro ⟨⟨after, rfl⟩, rfl⟩
    exact before?_append before after

theorem after?_eq_some_iff {cs after : List Char} {n : Nat} :
    after? cs n = some after ↔ ∃ before, cs = before ++ after ∧ size before = n := by
  constructor
  · intro h
    obtain ⟨before, hb, rfl⟩ := Option.map_eq_some_iff.1 h
    obtain ⟨⟨rest, rfl⟩, hn⟩ := before?_eq_some_iff.1 hb
    exact ⟨before, by rw [List.drop_left], hn⟩
  · rintro ⟨before, rfl, rfl⟩
    exact after?_append before after

/-- Further on in a text stands what is left of it. -/
theorem after?_add {source text rest : List Char} {n : Nat}
    (h : after? source n = some (text ++ rest)) : after? source (n + size text) = some rest := by
  obtain ⟨before, rfl, rfl⟩ := after?_eq_some_iff.1 h
  exact after?_eq_some_iff.2 ⟨before ++ text, (List.append_assoc ..).symm, size_append ..⟩

end Text

/-- The byte at offset `n` is one of the bytes of a range. -/
def Span.Covers (s : Span) (n : Nat) : Prop := s.start ≤ n ∧ n < s.stop

/-- On the range `s` of `source` stands `text`, and behind it `rest`. -/
structure Span.Shows (source : List Char) (s : Span) (text rest : List Char) : Prop where
  /-- The text is where the range starts. -/
  at_start : Text.after? source s.start = some (text ++ rest)
  /-- The range is as wide as the text. -/
  stop_eq : s.stop = s.start + Text.size text

/-- The byte of `source` at offset `n` is a blank. -/
def BlankAt (source : List Char) (n : Nat) : Prop :=
  ∃ c rest, Text.after? source n = some (c :: rest) ∧ isBlank c

theorem size_of_isBlank {c : Char} (h : isBlank c) : c.utf8Size = 1 := by
  simp only [isBlank, Bool.or_eq_true, beq_iff_eq] at h
  rcases h with ((rfl | rfl) | rfl) | rfl <;> rfl

namespace Token

/-! ### What is said of the tokens of a text -/

/-- Among the tokens `ts` one construct is opened by a marker at `opening`, holds the tokens
`inner`, and is closed by its marker at `closing`. -/
def Encloses (ts : List (Spanned Token)) (k : Construct) (opening : Span)
    (inner : List (Spanned Token)) (closing : Span) : Prop :=
  ∃ before after, Bracketed before ∧ (∀ t ∈ inner, Inside k t.node) ∧
    ts = before ++ ⟨k.openToken, opening⟩ :: (inner ++ ⟨k.closeToken, closing⟩ :: after)

/-- The byte at offset `n` lies between the markers of a construct. -/
def Between (ts : List (Spanned Token)) (n : Nat) : Prop :=
  ∃ k opening inner closing, Encloses ts k opening inner closing ∧
    opening.stop ≤ n ∧ n < closing.start

/-- The token is what its pattern makes of `text`, or it is literal text, which is not empty and has
no opening marker in it. -/
def ReadFrom (t : Token) (text : List Char) : Prop :=
  t.Matches text ∨
    t = .text (String.ofList text) ∧ text ≠ [] ∧ ∀ k : Construct, ¬ k.openText <:+: text

/-- The tokens `ts` account for the text `source`. -/
structure Accounts (source : List Char) (ts : List (Spanned Token)) : Prop where
  /-- The tokens are texts and constructs, which have both their markers. -/
  bracketed : Bracketed ts
  /-- A token stands on a range of the text, and this is not empty. -/
  ranges : ∀ t ∈ ts, t.span.IsRange source ∧ t.span.start < t.span.stop
  /-- A token stops before the next one starts. -/
  disjoint : ts.Pairwise fun t u => t.span.stop ≤ u.span.start
  /-- A byte of no token is a blank between the markers of a construct. -/
  covered : ∀ n < Text.size source,
    (∃ t ∈ ts, t.span.Covers n) ∨ BlankAt source n ∧ Between ts n
  /-- A token is read from the text on its range. -/
  texts : ∀ t ∈ ts, ∃ text rest, t.span.Shows source text rest ∧ t.node.ReadFrom text
  /-- Inside a construct a token is the longest match where it stands. -/
  longest : ∀ {k : Construct} {opening closing : Span} {inner : List (Spanned Token)},
    Encloses ts k opening inner closing → ∀ t ∈ inner ++ [⟨k.closeToken, closing⟩],
      ∃ text rest, t.span.Shows source text rest ∧ t.node.IsLongest text (text ++ rest)

/-! ### Constructs among other tokens -/

theorem Bracketed.append {ts us : List (Spanned Token)} (h : Bracketed ts) (hu : Bracketed us) :
    Bracketed (ts ++ us) := by
  induction h with
  | nil => exact hu
  | text _ ih => exact .text ih
  | construct hi hw _ ih =>
    rw [List.cons_append, List.append_assoc]
    exact .construct hi hw ih

theorem Between.append_right {ts : List (Spanned Token)} {n : Nat} (h : Between ts n)
    (us : List (Spanned Token)) : Between (ts ++ us) n := by
  obtain ⟨k, opening, inner, closing, ⟨before, after, hb, hi, rfl⟩, hn⟩ := h
  refine ⟨k, opening, inner, closing, ⟨before, after ++ us, hb, hi, ?_⟩, hn⟩
  simp only [List.append_assoc, List.cons_append]

theorem Between.append_left {ts us : List (Spanned Token)} {n : Nat} (h : Between us n)
    (ht : Bracketed ts) : Between (ts ++ us) n := by
  obtain ⟨k, opening, inner, closing, ⟨before, after, hb, hi, rfl⟩, hn⟩ := h
  refine ⟨k, opening, inner, closing, ⟨ts ++ before, after, ht.append hb, hi, ?_⟩, hn⟩
  rw [List.append_assoc]

/-! ### From the opening marker to the close marker -/

/-- The tokens `inner` and the close marker at `closing` account for the text from byte offset `pos`
on: each is the longest match where it stands, and there are only blanks between them. -/
structure Filled (source : List Char) (pos : Nat) (k : Construct) (inner : List (Spanned Token))
    (closing : Span) : Prop where
  /-- The tokens are longest matches. -/
  longest : ∀ t ∈ inner ++ [⟨k.closeToken, closing⟩],
    ∃ text rest, t.span.Shows source text rest ∧ t.node.IsLongest text (text ++ rest)
  /-- What is between them is blank. -/
  covered : ∀ n, pos ≤ n → n < closing.stop →
    (∃ t ∈ inner ++ [⟨k.closeToken, closing⟩], t.span.Covers n) ∨
      BlankAt source n ∧ n < closing.start
  /-- The close marker does not start before them. -/
  le_start : pos ≤ closing.start

variable {source : List Char} {pos : Nat} {k : Construct} {inner : List (Spanned Token)}
  {closing : Span}

theorem Filled.blank {c : Char} {cs : List Char}
    (h : Filled source (pos + c.utf8Size) k inner closing)
    (hc : Text.after? source pos = some (c :: cs)) (hb : isBlank c) :
    Filled source pos k inner closing where
  longest := h.longest
  covered := by
    intro n hn hstop
    rw [size_of_isBlank hb] at h
    obtain rfl | hlt := Nat.eq_or_lt_of_le hn
    · exact .inr ⟨⟨c, cs, hc, hb⟩, h.le_start⟩
    · exact h.covered n hlt hstop
  le_start := (Nat.le_add_right _ _).trans h.le_start

theorem Filled.cons {t : Token} {text rest : List Char}
    (h : Filled source (pos + Text.size text) k inner closing)
    (hc : Text.after? source pos = some (text ++ rest)) (ht : t.IsLongest text (text ++ rest)) :
    Filled source pos k (⟨t, pos, pos + Text.size text⟩ :: inner) closing where
  longest := List.forall_mem_cons.2 ⟨⟨text, rest, ⟨hc, rfl⟩, ht⟩, h.longest⟩
  covered := by
    intro n hn hstop
    by_cases hlt : n < pos + Text.size text
    · exact .inl ⟨_, List.mem_cons_self, hn, hlt⟩
    · obtain ⟨u, hu, hcov⟩ | hblank := h.covered n (Nat.le_of_not_lt hlt) hstop
      · exact .inl ⟨u, List.mem_cons_of_mem _ hu, hcov⟩
      · exact .inr hblank
  le_start := (Nat.le_add_right _ _).trans h.le_start

theorem filled_closing {rest : List Char}
    (hc : Text.after? source pos = some (k.closeText ++ rest)) :
    Filled source pos k [] ⟨pos, pos + Construct.markSize⟩ where
  longest := by
    have hl := (spelled_closeToken_iff.2 rfl).isLongest (endsBefore_closeText k rest)
    refine List.forall_mem_singleton.2 ⟨k.closeText, rest, ⟨hc, ?_⟩, hl⟩
    rw [size_closeText]
  covered := fun n hn hstop => .inl ⟨_, List.mem_singleton_self _, hn, hstop⟩
  le_start := Nat.le_refl pos

/-- The scanner accounts for a construct from wherever it stands in it. -/
theorem Scans.filled {start : Nat} {cs : List Char} {after : List (Spanned Token)}
    (h : Scans (.inside k start) pos cs (inner ++ ⟨k.closeToken, closing⟩ :: after))
    (hi : ∀ t ∈ inner, Inside k t.node) (hc : Text.after? source pos = some cs) :
    Filled source pos k inner closing := by
  generalize hr : Region.inside k start = r at h
  generalize hts : inner ++ ⟨k.closeToken, closing⟩ :: after = ts at h
  induction h generalizing inner with
  | rest | opening => cases hr
  | @blank _ _ pos c cs _ hb _ ih =>
    have hcons : Text.after? source pos = some ([c] ++ cs) := hc
    exact (ih hi (Text.after?_add hcons) hr hts).blank hc hb
  | @inner _ _ pos t text rest _ ht he hk _ ih =>
    cases hr
    cases inner with
    | nil =>
      cases hts
      exact absurd rfl hk
    | cons u inner =>
      cases hts
      exact (ih (fun t ht => hi t (List.mem_cons_of_mem _ ht)) (Text.after?_add hc) rfl rfl).cons hc
        (ht.isLongest he)
  | closing _ =>
    cases hr
    cases inner with
    | nil =>
      cases hts
      exact filled_closing hc
    | cons u inner =>
      cases hts
      exact absurd rfl (hi _ List.mem_cons_self).1

/-! ### One text or construct after the other -/

/-- The tokens `ts` account for the bytes of `source` from offset `pos` up to `stop`. -/
structure Segment (source : List Char) (pos stop : Nat) (ts : List (Spanned Token)) : Prop where
  /-- A token is read from the text on its range. -/
  texts : ∀ t ∈ ts, ∃ text rest, t.span.Shows source text rest ∧ t.node.ReadFrom text
  /-- A byte of no token is a blank between the markers of a construct. -/
  covered : ∀ n, pos ≤ n → n < stop →
    (∃ t ∈ ts, t.span.Covers n) ∨ BlankAt source n ∧ Between ts n

theorem segment_nil (source : List Char) (pos : Nat) : Segment source pos pos [] where
  texts := nofun
  covered := fun _ hn hstop => absurd hn (Nat.not_le_of_lt hstop)

theorem Segment.append {mid stop : Nat} {ts us : List (Spanned Token)}
    (h : Segment source pos mid ts) (h' : Segment source mid stop us) (hb : Bracketed ts) :
    Segment source pos stop (ts ++ us) where
  texts := List.forall_mem_append.2 ⟨h.texts, h'.texts⟩
  covered := by
    intro n hn hstop
    by_cases hlt : n < mid
    · obtain ⟨t, ht, hcov⟩ | ⟨hblank, hbetween⟩ := h.covered n hn hlt
      · exact .inl ⟨t, List.mem_append_left us ht, hcov⟩
      · exact .inr ⟨hblank, hbetween.append_right us⟩
    · obtain ⟨t, ht, hcov⟩ | ⟨hblank, hbetween⟩ := h'.covered n (Nat.le_of_not_lt hlt) hstop
      · exact .inl ⟨t, List.mem_append_right ts ht, hcov⟩
      · exact .inr ⟨hblank, hbetween.append_left hb⟩

theorem segment_literal {cs rest : List Char} (hc : Text.after? source pos = some (cs ++ rest))
    (hm : nextMarker cs = none) :
    Segment source pos (pos + Text.size cs) (literal pos cs) := by
  cases cs with
  | nil => exact segment_nil source pos
  | cons c cs =>
    refine ⟨List.forall_mem_singleton.2 ⟨c :: cs, rest, ⟨hc, rfl⟩, ?_⟩, ?_⟩
    · exact .inr ⟨rfl, List.cons_ne_nil c cs, nextMarker_eq_none_iff.1 hm⟩
    · exact fun n hn hstop => .inl ⟨_, List.mem_singleton_self _, hn, hstop⟩

theorem segment_construct {rest : List Char}
    (hc : Text.after? source pos = some (k.openText ++ rest)) (hi : ∀ t ∈ inner, Inside k t.node)
    (h : Filled source (pos + Construct.markSize) k inner closing) :
    Segment source pos closing.stop
      (⟨k.openToken, pos, pos + Construct.markSize⟩ :: (inner ++ [⟨k.closeToken, closing⟩])) where
  texts := by
    refine List.forall_mem_cons.2 ⟨⟨k.openText, rest, ⟨hc, ?_⟩, ?_⟩, fun t ht => ?_⟩
    · rw [size_openText]
    · refine .inl ?_
      cases k
      · exact .directiveOpen
      · exact .interpolationOpen
    · obtain ⟨text, more, hs, hl⟩ := h.longest t ht
      exact ⟨text, more, hs, .inl hl.of_pattern⟩
  covered := by
    intro n hn hstop
    by_cases hlt : n < pos + Construct.markSize
    · exact .inl ⟨_, List.mem_cons_self, hn, hlt⟩
    · have hle := Nat.le_of_not_lt hlt
      obtain ⟨t, ht, hcov⟩ | ⟨hblank, hstart⟩ := h.covered n hle hstop
      · exact .inl ⟨t, List.mem_cons_of_mem _ ht, hcov⟩
      · exact .inr ⟨hblank, k, _, inner, closing, ⟨[], [], .nil, hi, rfl⟩, hle, hstart⟩

/-- What is scanned into literal text alone is that text. -/
theorem Scans.eq_literal {cs : List Char} {s : String} {span : Span}
    (h : Scans .outside pos cs [⟨.text s, span⟩]) :
    nextMarker cs = none ∧ [⟨.text s, span⟩] = literal pos cs := by
  generalize hts : [(⟨.text s, span⟩ : Spanned Token)] = ts at h
  cases h with
  | rest hm => exact ⟨hm, rfl⟩
  | @opening _ _ before _ k more _ h =>
    -- an opening marker is not literal text, and it is not the last token
    cases before with
    | nil => cases k <;> cases hts
    | cons c cs => cases hts

/-- What begins with an opening marker goes on inside the construct. -/
theorem Scans.of_openToken {cs : List Char} {opening : Span} {ts : List (Spanned Token)}
    (h : Scans .outside pos cs (⟨k.openToken, opening⟩ :: ts)) :
    ∃ rest, cs = k.openText ++ rest ∧ opening = ⟨pos, pos + Construct.markSize⟩ ∧
      Scans (.inside k pos) (pos + Construct.markSize) rest ts := by
  generalize hus : (⟨k.openToken, opening⟩ : Spanned Token) :: ts = us at h
  have hne : ∀ s, k.openToken ≠ .text s := by cases k <;> simp [Construct.openToken]
  cases h with
  | rest hm =>
    cases cs with
    | nil => cases hus
    | cons c cs =>
      simp only [literal, List.isEmpty_cons, Bool.false_eq_true, if_false, List.cons.injEq,
        Spanned.mk.injEq] at hus
      exact absurd hus.1.1 (hne _)
  | @opening _ _ before rest k' more hm h =>
    cases before with
    | nil =>
      simp only [literal, List.isEmpty_nil, if_true, List.nil_append, List.cons.injEq,
        Spanned.mk.injEq] at hus
      obtain ⟨⟨hk, rfl⟩, rfl⟩ := hus
      obtain rfl := eq_of_openToken_eq hk
      exact ⟨rest, (nextMarker_eq_some_iff.1 hm).1, rfl, h⟩
    | cons c cs =>
      simp only [literal, List.isEmpty_cons, Bool.false_eq_true, if_false, List.cons_append,
        List.nil_append, List.cons.injEq, Spanned.mk.injEq] at hus
      exact absurd hus.1.1 (hne _)

theorem Scans.segment {cs : List Char} {ts : List (Spanned Token)} (hb : Bracketed ts)
    (h : Scans .outside pos cs ts) (hc : Text.after? source pos = some cs) :
    Segment source pos (pos + Text.size cs) ts := by
  induction hb generalizing pos cs with
  | nil =>
    obtain rfl := h.eq_nil rfl
    exact segment_nil source pos
  | @text s span ts hb ih =>
    have hcons : Scans .outside pos cs ([⟨.text s, span⟩] ++ ts) := h
    obtain ⟨before, after, hcut⟩ := hcons.cut (Bracketed.text .nil)
    obtain ⟨hm, hlit⟩ := hcut.first.eq_literal
    rw [hcut.text_eq] at hc ⊢
    have hbefore := segment_literal hc hm
    rw [← hlit] at hbefore
    rw [Text.size_append, ← Nat.add_assoc]
    exact hbefore.append (ih hcut.second (Text.after?_add hc)) (.text .nil)
  | @construct k opening closing inner ts hi hw hb ih =>
    obtain ⟨rest, rfl, rfl, hin⟩ := h.of_openToken
    have hone : Bracketed
        (⟨k.openToken, pos, pos + Construct.markSize⟩ :: (inner ++ [⟨k.closeToken, closing⟩])) :=
      .construct hi hw .nil
    have hpiece := segment_construct hc hi (hin.filled hi (size_openText k ▸ Text.after?_add hc))
    rw [List.append_cons inner, ← List.cons_append] at h ⊢
    obtain ⟨before, after, hcut⟩ := h.cut hone
    rw [hcut.text_eq] at hc ⊢
    have hstop : closing.stop = pos + Text.size before := by
      refine hcut.first.stop_eq ⟨k.closeToken, closing⟩ ?_
      rw [← List.cons_append, List.getLast?_concat]
      rfl
    rw [hstop] at hpiece
    rw [Text.size_append, ← Nat.add_assoc]
    exact hpiece.append (ih hcut.second (Text.after?_add hc)) hone

/-! ### A whole text -/

theorem ReadFrom.ne_nil {t : Token} {text : List Char} (h : t.ReadFrom text) : text ≠ [] := by
  obtain h | ⟨-, hne, -⟩ := h
  · obtain ⟨u, hu, -⟩ := h.exists_spelled
    obtain ⟨c, cs, rfl, -⟩ := hu.exists_cons
    exact List.cons_ne_nil c cs
  · exact hne

/-- The tokens of a construct are found again by scanning from its opening marker on. -/
theorem Scans.filled_of_encloses {cs : List Char} {ts : List (Spanned Token)} {opening : Span}
    (h : Scans .outside 0 cs ts) (he : Encloses ts k opening inner closing) :
    Filled cs opening.stop k inner closing := by
  obtain ⟨before, after, hb, hi, rfl⟩ := he
  obtain ⟨text, rest, hcut⟩ := h.cut hb
  obtain ⟨rest', rfl, rfl, hin⟩ := hcut.second.of_openToken
  refine hin.filled hi (Text.after?_eq_some_iff.2 ⟨text ++ k.openText, ?_, ?_⟩)
  · rw [hcut.text_eq, List.append_assoc]
  · rw [Text.size_append, size_openText, Nat.zero_add]

/-- **The tokens of a template account for all of it**, and inside the markers they are its longest
matches. -/
theorem scan_accounts (source : String) (ts : List (Spanned Token)) (h : scan source = .ok ts) :
    Accounts source.toList ts := by
  have hs : Scans .outside 0 source.toList ts := scanFrom_eq_ok_iff.1 h
  have hstart : Text.after? source.toList 0 = some source.toList :=
    Text.after?_eq_some_iff.2 ⟨[], rfl, rfl⟩
  have hsegment := hs.segment hs.bracketed hstart
  have hspread : Spread source.toList 0 ts := hs.spread (List.nil_append _) rfl
  refine ⟨hs.bracketed, fun t ht => ⟨hspread.isRange_of_mem t ht, ?_⟩, hspread.pairwise, ?_,
    hsegment.texts, fun he => (hs.filled_of_encloses he).longest⟩
  · obtain ⟨text, rest, hshows, hread⟩ := hsegment.texts t ht
    rw [hshows.stop_eq]
    exact Nat.lt_add_of_pos_right (Text.size_pos hread.ne_nil)
  · intro n hn
    exact hsegment.covered n (Nat.zero_le n) (by rwa [Nat.zero_add])

theorem scan_accounts_quoted_marker :
    ∃ ts, scan "é[% if iffy '%]' %]\n[[$x]]" = .ok ts ∧
      ts.map (·.node) = [.text "é", .directiveOpen, .keyword .ifK, .ident "iffy", .string "%]",
        .directiveClose, .text "\n", .interpolationOpen, .var "x", .interpolationClose] ∧
      Accounts "é[% if iffy '%]' %]\n[[$x]]".toList ts := by
  have h : scan "é[% if iffy '%]' %]\n[[$x]]" = .ok
      [⟨.text "é", 0, 2⟩, ⟨.directiveOpen, 2, 4⟩, ⟨.keyword .ifK, 5, 7⟩, ⟨.ident "iffy", 8, 12⟩,
        ⟨.string "%]", 13, 17⟩, ⟨.directiveClose, 18, 20⟩, ⟨.text "\n", 20, 21⟩,
        ⟨.interpolationOpen, 21, 23⟩, ⟨.var "x", 23, 25⟩, ⟨.interpolationClose, 25, 27⟩] := by cbv
  exact ⟨_, h, rfl, scan_accounts _ _ h⟩

end Token

end Stencil
