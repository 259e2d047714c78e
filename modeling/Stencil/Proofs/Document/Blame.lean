import Stencil.Proofs.Document.Concatenation
import Stencil.Proofs.Token.Places
import Stencil.Report

/-!
# What a parse error is blamed on

Whatever is wrong with a template, the error is blamed on a range of it: on characters that begin no
token, on tokens, on whole constructs. There is one exception. A condition that stops too early is
blamed on what lies between its close marker and its last token, from the one back to the other, so
that the span stops before it starts wherever there are blanks between them. Nothing can be drawn
there (`parse_error_places`).
-/

namespace Stencil

/-! ### Blame -/

/-- Whether the cause is a condition that stops too early. -/
def ParseError.Cause.stopsEarly : Cause → Bool
  | .unexpectedEnd _ => true
  | _ => false

/-- The error is blamed on a range of `source`, or is a condition that stops too early and is blamed
from a boundary back to another. -/
structure ParseError.Placed (source : List Char) (e : ParseError) : Prop where
  /-- The span starts at a boundary. -/
  start : IsBoundary source e.span.start
  /-- It stops at a boundary. -/
  stop : IsBoundary source e.span.stop
  /-- It does not stop before it starts, if no condition stops too early. -/
  forwards : e.cause.stopsEarly = false → e.span.start ≤ e.span.stop
  /-- It does not start before it stops, if one does. -/
  backwards : e.cause.stopsEarly = true → e.span.stop ≤ e.span.start

theorem Span.IsRange.placed {source : List Char} {cause : ParseError.Cause} {span : Span}
    (h : span.IsRange source) (hc : cause.stopsEarly = false) :
    ParseError.Placed source ⟨cause, span⟩ :=
  ⟨h.start, h.stop, fun _ => h.start_le, fun he => absurd (hc.symm.trans he) Bool.false_ne_true⟩

/-! ### Scanning -/

namespace Token

/-- The region of a construct whose opening marker stands on a range of `source`. -/
def Region.Opened (source : List Char) : Region → Prop
  | .outside => True
  | .inside _ start => Span.IsRange source ⟨start, start + Construct.markSize⟩

/-- **A template that cannot be scanned has a range to blame.** -/
theorem placed_of_scanFrom {source : List Char} (r : Region) (pos : Nat) (cs : List Char) :
    ∀ before, before ++ cs = source → pos = Text.size before → r.Opened source →
      ∀ e, scanFrom r pos cs = .error e → e.Placed source := by
  induction r, pos, cs using scan_induction with
  | rest pos cs hm =>
    intro before hc hp ho e he
    rw [scanFrom_rest hm] at he
    cases he
  | opening pos cs text k rest hm ih =>
    rintro before hc rfl ho e he
    obtain ⟨rfl, -, -⟩ := nextMarker_eq_some_iff.1 hm
    have hr := isRange_openText k hc
    rw [scanFrom_opening hm] at he
    split_ifs at he
    · refine ih (before ++ text ++ k.openText) ?_ ?_ hr e (map_eq_error_iff.1 he)
      · rw [← hc]
        simp only [List.append_assoc]
      · simp only [Text.size_append, size_openText]
    · cases he
      exact hr.placed rfl
  | nil k start pos =>
    intro before hc hp ho e he
    rw [scanFrom_nil] at he
    cases he
    exact Span.IsRange.placed ho rfl
  | blank k start pos c cs hb ih =>
    rintro before hc rfl ho e he
    rw [scanFrom_blank hb] at he
    exact ih (before ++ [c]) (by rw [← hc]; simp) (by simp) ho e he
  | unknown k start pos c cs found hb hr =>
    rintro before hc rfl ho e he
    rw [scanFrom_unknown hb hr] at he
    cases he
    obtain ⟨rest, hrest⟩ := Lexeme.prefix_of_unknown hr
    have hfound : before ++ found <+: source := ⟨rest, by rw [← hc, ← hrest, List.append_assoc]⟩
    exact (isRange_of_stretch hfound).placed rfl
  | token k start pos t text rest ht hend ih =>
    rintro before hc rfl ho e he
    rw [scanFrom_token ht hend] at he
    refine ih (before ++ text) ?_ ?_ ?_ e (map_eq_error_iff.1 he)
    · rw [← hc, List.append_assoc]
    · rw [Text.size_append]
    · split_ifs
      · trivial
      · exact ho

end Token

/-! ### Conditions -/

namespace Condition

variable {source : List Char} {pos : Nat}

/-- The extent of tokens is a range that stops where one of them does. -/
theorem isRange_of_extent? {ts : List (Spanned Token)} {span : Span} (hs : Spread source pos ts)
    (h : extent? ts = some span) : span.IsRange source ∧ ∃ t ∈ ts, span.stop = t.span.stop := by
  cases ts with
  | nil => cases h
  | cons t ts =>
    cases h
    have hlast := List.getLast_mem (List.cons_ne_nil t ts)
    have hr := hs.isRange_of_mem _ hlast
    have hle := (Spread.cons (Nat.le_refl _) hs.isRange_head hs.tail).le_start_of_mem _ hlast
    exact ⟨⟨hs.isRange_head.start, hr.stop, Nat.le_trans hle hr.start_le⟩, _, hlast, rfl⟩

theorem mem_of_firstTooDeep {limit depth : Nat} {ts : List (Spanned Token)} {span : Span}
    (h : firstTooDeep limit depth ts = some span) : ∃ t ∈ ts, t.span = span := by
  induction ts generalizing depth with
  | nil => cases h
  | cons t ts ih =>
    have hmore : ∀ {depth}, firstTooDeep limit depth ts = some span →
        ∃ u ∈ t :: ts, u.span = span := by
      intro depth h
      obtain ⟨u, hu, hspan⟩ := ih h
      exact ⟨u, List.mem_cons_of_mem t hu, hspan⟩
    rw [firstTooDeep] at h
    split at h
    · split at h
      · exact ⟨t, List.mem_cons_self, Option.some.inj h⟩
      · exact hmore h
    · split at h
      · exact hmore h
      · exact hmore h

/-- A condition is not read because of one of its tokens, or because it stops too early. -/
theorem read_eq_error {ending : Span} {levels : List Level} {level : Level} {due : Bool}
    {ts : List (Spanned Token)} {e : ParseError}
    (h : read ending levels level due ts = .error e) :
    (∃ expected, e = ⟨.unexpectedEnd expected, ending⟩) ∨
      ∃ t ∈ ts, ∃ expected, e = ⟨.unexpectedToken t.node expected, t.span⟩ := by
  fun_induction read ending levels level due ts with
  | case1 | case3 =>
    cases h
    exact .inl ⟨_, rfl⟩
  | case2 => cases h
  | case7 | case10 | case12 =>
    cases h
    exact .inr ⟨_, List.mem_cons_self, _, rfl⟩
  | case4 _ _ t _ _ _ ih | case5 _ _ t _ _ _ ih | case6 _ _ t _ _ _ _ ih | case8 _ _ t _ _ ih
  | case9 _ _ t _ _ _ ih | case11 _ t _ _ _ _ _ _ ih =>
    obtain h | ⟨u, hu, h⟩ := ih h
    · exact .inl h
    · exact .inr ⟨u, List.mem_cons_of_mem t hu, h⟩

/-- **A condition that cannot be read has a range to blame, or stops too early.** -/
theorem placed_of_parse {limit : Nat} {keyword : Keyword} {head : Span} {closing : Nat}
    {args : List (Spanned Token)} {e : ParseError}
    (h : parse limit keyword head closing args = .error e) (hs : Spread source pos args)
    (hh : head.IsRange source) (hc : IsBoundary source closing)
    (hlt : ∀ t ∈ args, t.span.stop ≤ closing) : e.Placed source := by
  unfold parse at h
  split at h
  · cases h
    exact hh.placed rfl
  next extent hx =>
  split at h
  · next span hd =>
    cases h
    obtain ⟨t, ht, rfl⟩ := mem_of_firstTooDeep hd
    exact (hs.isRange_of_mem t ht).placed rfl
  · obtain h | ⟨c, -, h⟩ := bind_eq_error_iff.1 h
    · obtain ⟨expected, rfl⟩ | ⟨t, ht, expected, rfl⟩ := read_eq_error h
      · -- from the close marker back to the last token
        obtain ⟨hr, t, ht, hstop⟩ := isRange_of_extent? hs hx
        have hle : extent.stop ≤ closing := hstop ▸ hlt t ht
        exact ⟨hc, hr.stop, fun hf => absurd hf.symm Bool.false_ne_true, fun _ => hle⟩
      · exact (hs.isRange_of_mem t ht).placed rfl
    · cases h

end Condition

/-! ### Items -/

namespace Item

variable {source : List Char} {pos : Nat}

theorem placed_of_alone {keyword : Keyword} {d : Directive} {args : List (Spanned Token)}
    {e : ParseError} (h : alone keyword d args = .error e) (hs : Spread source pos args) :
    e.Placed source := by
  unfold alone at h
  split at h
  · cases h
  · next span hx =>
    cases h
    exact (Condition.isRange_of_extent? hs hx).1.placed rfl

/-- Tokens that stand one behind the other before the close marker at the end of `full`. -/
structure Encloses (source : List Char) (full : Span) (inner : List (Spanned Token)) : Prop where
  /-- The whole is a range. -/
  isRange : full.IsRange source
  /-- The close marker begins at a boundary. -/
  closing : IsBoundary source (full.stop - Construct.markSize)
  /-- The tokens stand one behind the other. -/
  spread : Spread source full.start inner
  /-- They stop before the close marker. -/
  stop_le : ∀ t ∈ inner, t.span.stop ≤ full.stop - Construct.markSize

theorem encloses_of_spread {t t' : Token} {opening closing : Span}
    {inner ts : List (Spanned Token)}
    (hs : Spread source pos (⟨t, opening⟩ :: (inner ++ ⟨t', closing⟩ :: ts)))
    (hw : closing.stop = closing.start + Construct.markSize) :
    Encloses source ⟨opening.start, closing.stop⟩ inner := by
  have ho := hs.isRange_head
  have hc := hs.tail.of_append.isRange_head
  have hle : opening.stop ≤ closing.start :=
    hs.tail.le_start_of_mem ⟨t', closing⟩ (List.mem_append_right inner List.mem_cons_self)
  have hmark : closing.stop - Construct.markSize = closing.start := by
    rw [hw, Nat.add_sub_cancel]
  refine ⟨⟨ho.start, hc.stop, Nat.le_trans ho.start_le (Nat.le_trans hle hc.start_le)⟩, ?_,
    hs.tail.prefix_of_append.mono ho.start_le, fun u hu => ?_⟩
  · rw [hmark]
    exact hc.start
  · rw [hmark]
    exact hs.tail.stop_le_start u hu ⟨t', closing⟩ List.mem_cons_self

/-- A directive that cannot be made has a range to blame, or its condition stops too early. -/
theorem placed_of_directive? {limit : Nat} {full : Span} {inner : List (Spanned Token)}
    {e : ParseError} (h : directive? limit full inner = .error e)
    (hi : Encloses source full inner) : e.Placed source := by
  cases inner with
  | nil =>
    cases h
    exact hi.isRange.placed rfl
  | cons head args =>
    have hs := hi.spread
    have hc := hi.closing
    have hargs := (List.forall_mem_cons.1 hi.stop_le).2
    simp only [directive?] at h
    split at h
    · exact Condition.placed_of_parse (map_eq_error_iff.1 h) hs.tail hs.isRange_head hc hargs
    · exact Condition.placed_of_parse (map_eq_error_iff.1 h) hs.tail hs.isRange_head hc hargs
    · exact placed_of_alone h hs.tail
    · exact placed_of_alone h hs.tail
    · split at h
      · cases h
      · cases h
        cases hx : Condition.extent? args with
        | none => exact hs.isRange_head.placed rfl
        | some span => exact (Condition.isRange_of_extent? hs.tail hx).1.placed rfl
    · cases h
      exact hs.isRange_head.placed rfl

theorem placed_of_construct? {limit : Nat} {full : Span} {inner : List (Spanned Token)}
    {k : Construct} {e : ParseError} (h : construct? limit full inner k = .error e)
    (hi : Encloses source full inner) : e.Placed source := by
  cases k with
  | interpolation =>
    simp only [construct?] at h
    split at h
    · cases h
    · cases h
      exact hi.isRange.placed rfl
  | directive =>
    simp only [construct?] at h
    exact placed_of_directive? (map_eq_error_iff.1 h) hi

/-- **Items stand on ranges, and where tokens make none there is a range to blame**, or a condition
stops too early. -/
theorem places_of_ofTokens (limit : Nat) {ts : List (Spanned Token)} (hb : Token.Bracketed ts)
    (hs : Spread source pos ts) :
    (∀ e, ofTokens limit ts = .error e → e.Placed source) ∧
      ∀ items, ofTokens limit ts = .ok items → ∀ x ∈ items, x.span.IsRange source := by
  induction hb generalizing pos with
  | nil =>
    rw [ofTokens_nil]
    refine ⟨nofun, ?_⟩
    rintro items ⟨⟩
    exact nofun
  | text _ ih =>
    obtain ⟨herror, hok⟩ := ih hs.tail
    rw [ofTokens_text]
    refine ⟨fun e h => herror e (map_eq_error_iff.1 h), fun items h => ?_⟩
    obtain ⟨more, hm, rfl⟩ := map_eq_ok_iff.1 h
    exact List.forall_mem_cons.2 ⟨hs.isRange_head, hok more hm⟩
  | @construct k opening closing inner ts hin hw _ ih =>
    have hclose := hs.tail.of_append
    obtain ⟨herror, hok⟩ := ih hclose.tail
    have hi := encloses_of_spread hs hw
    rw [ofTokens_construct hin]
    refine ⟨fun e h => ?_, fun items h => ?_⟩
    · obtain h | ⟨item, -, h⟩ := bind_eq_error_iff.1 h
      · exact placed_of_construct? h hi
      · exact herror e (map_eq_error_iff.1 h)
    · obtain ⟨item, -, h⟩ := bind_eq_ok_iff.1 h
      obtain ⟨more, hm, rfl⟩ := map_eq_ok_iff.1 h
      exact List.forall_mem_cons.2 ⟨hi.isRange, hok more hm⟩

end Item

/-! ### Blocks -/

namespace Document

theorem span_of_terminatorOf? {x : Spanned Item} {t : Spanned Terminator}
    (h : terminatorOf? x = some t) : t.span = x.span := by
  unfold terminatorOf? at h
  split at h <;> cases h <;> rfl

/-- What is wrong after the body of a branch has a range to blame. -/
theorem placed_of_readAfter {source : List Char} {limit depth : Nat} {opening : Span}
    {c : Spanned Condition} {b : Stretch} {e : ParseError}
    (h : readAfter limit depth opening c b = .error e) (ho : opening.IsRange source)
    (helif : ∀ next span, b.terminator = some ⟨.elifT next, span⟩ →
      readClauses limit depth opening next b.rest = .error e → e.Placed source)
    (helse : ∀ span, b.terminator = some ⟨.elseT, span⟩ →
      readBlock limit depth b.rest = .error e → e.Placed source)
    (hlast : ∀ span, b.terminator = some ⟨.elseT, span⟩ →
      ∀ last, readBlock limit depth b.rest = .ok last →
        ∀ t, last.terminator = some t → t.span.IsRange source) :
    e.Placed source := by
  obtain ⟨nodes, _ | ⟨next | _ | _, span⟩, rest⟩ := b
  · cases h
    exact ho.placed rfl
  · exact helif next span rfl (map_eq_error_iff.1 h)
  · obtain h | ⟨last, hl, h⟩ := bind_eq_error_iff.1 h
    · exact helse span rfl h
    · have ht := hlast span rfl last hl
      obtain ⟨nodes', _ | ⟨_ | _ | _, span'⟩, rest'⟩ := last
      · cases h
        exact ho.placed rfl
      · cases h
        exact (ht _ rfl).placed rfl
      · cases h
        exact (ht _ rfl).placed rfl
      · cases h
  · cases h

/-- **Blocks that cannot be put together have an item to blame.** -/
theorem reading_placed (source : List Char) (limit : Nat) :
    (∀ depth items, (∀ x ∈ items, x.span.IsRange source) →
      ∀ e, readBlock limit depth items = .error e → e.Placed source) ∧
    ∀ depth opening c items, opening.IsRange source → (∀ x ∈ items, x.span.IsRange source) →
      ∀ e, readClauses limit depth opening c items = .error e → e.Placed source := by
  have hleft := reading_suffix limit
  apply reading_induction limit
  case nil =>
    intro depth _ e h
    rw [readBlock_nil] at h
    cases h
  case node =>
    intro depth x n rest hn ih hx e h
    rw [readBlock_node _ _ _ hn] at h
    exact ih (List.forall_mem_cons.1 hx).2 e (map_eq_error_iff.1 h)
  case terminator =>
    intro depth x t rest ht _ e h
    rw [readBlock_terminator _ _ _ ht] at h
    cases h
  case opening =>
    intro depth span c rest ihc ihr hx e h
    obtain ⟨hspan, hrest⟩ := List.forall_mem_cons.1 hx
    rw [readBlock_if] at h
    split_ifs at h
    · cases h
      exact Span.IsRange.placed hspan rfl
    obtain h | ⟨t, ht, h⟩ := bind_eq_error_iff.1 h
    · exact ihc hspan hrest e h
    · have hmore := (hleft.2 _ _ _ _ t ht).subset
      exact ihr t ht (fun y hy => hrest y (hmore hy)) e (map_eq_error_iff.1 h)
  case tooDeep =>
    intro depth span c rest hd hx e h
    rw [readBlock_if, if_pos hd] at h
    cases h
    exact Span.IsRange.placed (List.forall_mem_cons.1 hx).1 rfl
  case clauses =>
    intro depth opening c items ih ihelif ihelse ho hx e h
    rw [readClauses_eq] at h
    obtain h | ⟨b, hb, h⟩ := bind_eq_error_iff.1 h
    · exact ih hx e h
    have hrest : ∀ y ∈ b.rest, y.span.IsRange source := fun y hy =>
      hx y ((hleft.1 _ _ b hb).rest_suffix.subset hy)
    refine placed_of_readAfter h ho (fun next span ht h => ihelif b next span hb ht ho hrest e h)
      (fun span ht h => ihelse b span hb ht hrest e h) fun span ht last hl t ht' => ?_
    obtain ⟨y, hy, hterm⟩ := (hleft.1 _ _ last hl).exists_mem ht'
    exact span_of_terminatorOf? hterm ▸ hrest y hy

theorem placed_of_ofItems {source : List Char} {limit : Nat} {items : List (Spanned Item)}
    {e : ParseError} (h : ofItems limit items = .error e)
    (hx : ∀ x ∈ items, x.span.IsRange source) : e.Placed source := by
  rw [ofItems_eq] at h
  obtain h | ⟨b, hb, h⟩ := bind_eq_error_iff.1 h
  · exact (reading_placed source limit).1 0 items hx e h
  · cases ht : b.terminator with
    | none =>
      rw [ht] at h
      cases h
    | some t =>
      rw [ht] at h
      cases h
      obtain ⟨x, hmem, hterm⟩ := ((reading_suffix limit).1 _ _ b hb).exists_mem ht
      have hspan : t.span.IsRange source := span_of_terminatorOf? hterm ▸ hx x hmem
      exact hspan.placed rfl

/-! ### Templates -/

/-- Every parse error is well placed. -/
theorem placed_of_parse {limit : Nat} {source : String} {e : ParseError}
    (h : parse limit source = .error e) : e.Placed source.toList := by
  rw [parse_eq] at h
  obtain h | ⟨ts, hts, h⟩ := bind_eq_error_iff.1 h
  · exact Token.placed_of_scanFrom .outside 0 source.toList [] rfl rfl trivial e h
  have hs := Token.scanFrom_eq_ok_iff.1 hts
  have hspread : Spread source.toList 0 ts := @Token.Scans.spread _ [] _ _ _ _ hs rfl rfl
  obtain ⟨herror, hok⟩ := Item.places_of_ofTokens limit hs.bracketed hspread
  obtain h | ⟨items, hi, h⟩ := bind_eq_error_iff.1 h
  · exact herror e h
  · exact placed_of_ofItems h (hok items hi)

/-- A parse error can be drawn unless its span stops before it starts. -/
theorem isSome_report?_ofParseError (e : ParseError) (source name : String) :
    (((Diagnostic.ofParseError e).locate source).report? source name).isSome ↔
      e.span.start ≤ e.span.stop := by
  have h : ((Diagnostic.ofParseError e).locate source).span = some e.span := rfl
  unfold Diagnostic.report?
  rw [h]
  dsimp only
  split
  · next hlt => simpa using hlt
  · next hle => simpa using hle

/-- **What a parse error is blamed on lies in the template**, and starts and stops between two
characters. It does not stop before it starts, so that it can be drawn, unless a condition stops too
early: then it does not start before it stops, and can only be drawn where the two are one. -/
theorem parse_error_places {limit : Nat} {source : String} {e : ParseError}
    (h : parse limit source = .error e) (name : String) :
    (IsBoundary source.toList e.span.start ∧ IsBoundary source.toList e.span.stop) ∧
      (e.span.start ≤ source.utf8ByteSize ∧ e.span.stop ≤ source.utf8ByteSize) ∧
      (e.cause.stopsEarly = false → e.span.start ≤ e.span.stop) ∧
      (e.cause.stopsEarly = true → e.span.stop ≤ e.span.start) ∧
      ((((Diagnostic.ofParseError e).locate source).report? source name).isSome ↔
        e.span.start ≤ e.span.stop) := by
  have hp := placed_of_parse h
  rw [← size_toList]
  exact ⟨⟨hp.start, hp.stop⟩, ⟨hp.start.le, hp.stop.le⟩, hp.forwards, hp.backwards,
    isSome_report?_ofParseError e source name⟩

/-- An `else` in no block stands on a range behind a character of two bytes. -/
theorem parse_error_places_of_unopened :
    parse 1 "é[% else %]" = .error ⟨.unopened .elseK, ⟨2, 12⟩⟩ ∧
      (((Diagnostic.ofParseError ⟨.unopened .elseK, ⟨2, 12⟩⟩).locate "é[% else %]").report?
        "é[% else %]" "template").isSome := by
  have h : parse 1 "é[% else %]" = .error ⟨.unopened .elseK, ⟨2, 12⟩⟩ := by cbv
  obtain ⟨-, -, hforwards, -, hreport⟩ := parse_error_places h "template"
  exact ⟨h, hreport.2 (hforwards rfl)⟩

/-- The condition stops after `and`, which ends at 12; the close marker begins at 13. -/
theorem parse_error_backwards :
    parse 64 "[% if $a and %]x[% endif %]" =
        .error ⟨.unexpectedEnd Condition.operandExpected, ⟨13, 12⟩⟩ ∧
      ((Diagnostic.ofParseError ⟨.unexpectedEnd Condition.operandExpected, ⟨13, 12⟩⟩).locate
        "[% if $a and %]x[% endif %]").report? "[% if $a and %]x[% endif %]" "template" = none := by
  refine ⟨by cbv, ?_⟩
  rfl

end Document

end Stencil
