import Stencil.Engine
import Stencil.Proofs.Document.Blame
import Stencil.Proofs.Document.Tiling
import Stencil.Proofs.Position
import Stencil.Proofs.Render.Failures
import Stencil.Proofs.Report.Frame

/-!
# The place that a report shows

A failure has a position, and its report shows a place in the top of its frame. The position counts
the bytes of the template and its line feeds. The report takes the offsets of the span for characters
and starts a new line behind every character that ends one. Going through the text before the failure
both count up together until they meet a character that they see differently: one of several bytes,
or one that ends a line and is no line feed. From then on the report is ahead, and never falls back
(`SourceLine.count_le_lineAfter`). So the report of a template that does not render shows the
position of the failure exactly if there is no such character before it, and the label, read in
characters, lies in the template (`shows_position_iff`). A letter of two bytes is enough for another
column (`shows_another_column`).
-/

namespace Stencil

/-! ### Line feeds and lines -/

namespace SourceLine

/-- A report counts no fewer lines than there are line feeds in the text before, also if it has gone
on for some characters. If it counts no more, it is in the line that follows the last of them. -/
theorem count_le_lineAfter (text more rest : List Char) :
    text.count '\n' ≤ (lineAfter 0 0 0 (text ++ more) rest).1 ∧
      ((lineAfter 0 0 0 (text ++ more) rest).1 = text.count '\n' →
        (lineAfter 0 0 0 (text ++ more) rest).2 + (Text.lastLine text).length = text.length) := by
  induction more using List.reverseRecOn generalizing rest with
  | append_singleton more c ih =>
    obtain ⟨hle, hlast⟩ := ih (c :: rest)
    rw [← List.append_assoc, lineAfter_concat]
    split
    · dsimp only
      exact ⟨by omega, by omega⟩
    · exact ⟨hle, hlast⟩
  | nil =>
    rw [List.append_nil]
    induction text using List.reverseRecOn generalizing rest with
    | nil => exact ⟨Nat.le_refl _, fun _ => rfl⟩
    | append_singleton text c ih =>
      obtain ⟨hle, hlast⟩ := ih (c :: rest)
      rw [lineAfter_concat, Text.lastLine_concat, List.count_append, List.length_append,
        List.length_singleton]
      by_cases hc : c = '\n'
      · subst hc
        rw [if_pos (ends_lineFeed _), if_pos rfl, List.count_singleton_self]
        dsimp only
        exact ⟨by omega, fun _ => by rw [List.length_nil]; omega⟩
      · rw [if_neg hc, List.count_singleton, if_neg (by simpa using hc), Nat.add_zero,
          List.length_append, List.length_singleton, ← Nat.add_assoc]
        split
        · dsimp only
          exact ⟨by omega, by omega⟩
        · exact ⟨hle, fun h => by rw [hlast h]⟩

/-- What holds of every character of a text, and of the one that follows it, holds of the last one
and of those before it. -/
theorem forall_concat_iff {p : Char → Option Char → Prop} {text rest : List Char} {d : Char} :
    (∀ before c after, text ++ [d] = before ++ c :: after → p c (after ++ rest).head?) ↔
      (∀ before c after, text = before ++ c :: after → p c (after ++ d :: rest).head?) ∧
        p d rest.head? := by
  constructor
  · refine fun h => ⟨?_, h text d [] rfl⟩
    rintro before c after rfl
    have hc := h before c (after ++ [d]) (by simp)
    rwa [List.append_assoc, List.singleton_append] at hc
  · rintro ⟨htext, hd⟩ before c after heq
    induction after using List.reverseRecOn with
    | nil =>
      obtain ⟨-, hlast⟩ := List.append_inj' heq rfl
      cases hlast
      exact hd
    | append_singleton after e _ =>
      rw [← List.cons_append, ← List.append_assoc] at heq
      obtain ⟨rfl, hlast⟩ := List.append_inj' heq rfl
      cases hlast
      rw [List.append_assoc, List.singleton_append]
      exact htext before c after rfl

/-- It counts no more lines exactly if every line before ends with a line feed. -/
theorem lineAfter_eq_count_iff (text rest : List Char) :
    (lineAfter 0 0 0 text rest).1 = text.count '\n' ↔
      ∀ before c after, text = before ++ c :: after → Ends c (after ++ rest).head? → c = '\n' := by
  induction text using List.reverseRecOn generalizing rest with
  | nil => simp [lineAfter]
  | append_singleton text d ih =>
    have hle := (count_le_lineAfter text [] (d :: rest)).1
    rw [List.append_nil] at hle
    have hconcat := @forall_concat_iff (fun c next => Ends c next → c = '\n') text rest d
    rw [hconcat, ← ih, lineAfter_concat, List.count_append]
    by_cases hd : d = '\n'
    · subst hd
      rw [if_pos (ends_lineFeed _), List.count_singleton_self]
      simp
    · have hcount : [d].count '\n' = 0 := List.count_eq_zero.2 (by simpa using Ne.symm hd)
      rw [hcount, Nat.add_zero]
      split
      · next hends =>
        refine ⟨fun h => ?_, fun h => absurd (h.2 hends) hd⟩
        dsimp only at h
        omega
      · next hends => simp [hends]

end SourceLine

/-! ### Characters of one byte -/

namespace Text

theorem length_le_size (cs : List Char) : cs.length ≤ size cs := by
  induction cs with
  | nil => exact Nat.le_refl _
  | cons c cs ih =>
    have hpos := c.utf8Size_pos
    rw [List.length_cons, size_cons]
    omega

theorem size_eq_length_iff {cs : List Char} : size cs = cs.length ↔ ∀ c ∈ cs, c.utf8Size = 1 := by
  induction cs with
  | nil => simp
  | cons c cs ih =>
    have hpos := c.utf8Size_pos
    have hle := length_le_size cs
    rw [List.forall_mem_cons, ← ih, size_cons, List.length_cons]
    omega

end Text

/-! ### Where a failure of a template is -/

theorem Span.Shows.isRange {source : List Char} {s : Span} {text rest : List Char}
    (h : s.Shows source text rest) : s.IsRange source := by
  obtain ⟨before, hsource, hstart⟩ := Text.after?_eq_some_iff.1 h.at_start
  have hrange := @isRange_of_stretch source before text ⟨rest, by rw [hsource, List.append_assoc]⟩
  rwa [hstart, ← h.stop_eq] at hrange

theorem Node.Stands.isRange {source : List Char} {items : List (Spanned Item)} {n : Node}
    (h : n.Stands source items) : n.span.IsRange source := by
  cases h with
  | literal _ h =>
    obtain ⟨rest, h⟩ := h
    exact h.isRange
  | interpolation h =>
    obtain ⟨inner, rest, h⟩ := h
    exact h.isRange
  | inclusion h =>
    obtain ⟨inner, rest, h⟩ := h
    exact h.isRange
  | conditional _ _ _ hm _ =>
    obtain ⟨inner, rest, h⟩ := hm
    exact h.isRange

theorem renderTemplate_of_parse_error {source : String} {e : ParseError}
    (h : Document.parse Document.defaultNesting source = .error e) (params : Params) (mode : Mode) :
    renderTemplate source params mode = .error ((Diagnostic.ofParseError e).locate source) := by
  have hnesting : Limits.standard.nesting = Document.defaultNesting := rfl
  rw [renderTemplate, Render.template, Cache.lookUp_none, hnesting, h]

/-- A template with no includes fails at a span of itself, and at the position of this span. -/
theorem exists_span_of_renderTemplate {source : String} {params : Params} {mode : Mode}
    {d : Diagnostic} (h : renderTemplate source params mode = .error d) :
    ∃ span, d.span = some span ∧ d.position = some (Position.locate source span.start) ∧
      IsBoundary source.toList span.start ∧ IsBoundary source.toList span.stop := by
  obtain ⟨content, hnames, hpoints⟩ := Render.exists_names (Render.answersRight_none _ _) h
  obtain rfl : content = source := by
    cases horigin : d.origin with
    | none => rwa [horigin] at hnames
    | some key =>
      rw [horigin] at hnames
      obtain ⟨_, -, _, _, _, _, -, -, -, hresolved⟩ := hnames
      cases hresolved
  obtain ⟨span, hspan, hposition⟩ := hpoints.located
  refine ⟨span, hspan, hposition, ?_⟩
  cases hpoints.explained with
  | unparsed e hparse hd =>
    have hplaced := Document.placed_of_parse hparse
    rw [hd] at hspan
    cases hspan
    exact ⟨hplaced.start, hplaced.stop⟩
  | raised doc n hparse hocc hn _ =>
    obtain ⟨items, -, hlaid⟩ := Document.laid_of_parse hparse
    have hrange := (hlaid.stands n hocc).isRange
    rw [hspan] at hn
    cases hn
    exact ⟨hrange.start, hrange.stop⟩

/-! ### Two places -/

/-- No character before the span looks different to a report than to a position, and the span, read
in characters, ends in the text. -/
structure Span.SeenAlike (source : List Char) (s : Span) : Prop where
  /-- A character before it has one byte, and ends no line unless it is a line feed. -/
  before : ∀ before c after, source = before ++ c :: after → Text.size before < s.start →
    c.utf8Size = 1 ∧ (SourceLine.Ends c after.head? → c = '\n')
  /-- It ends in the text. -/
  stop_le : s.stop ≤ source.length + 1

/-- The characters before a boundary are those of the text before it. -/
theorem Text.forall_before_iff {text rest : List Char} {p : Char → Option Char → Prop} :
    (∀ before c after, text ++ rest = before ++ c :: after → size before < size text →
        p c after.head?) ↔
      ∀ before c after, text = before ++ c :: after → p c (after ++ rest).head? := by
  constructor
  · rintro h before c after rfl
    refine h before c (after ++ rest) (by rw [List.append_assoc, List.cons_append]) ?_
    have hpos := c.utf8Size_pos
    rw [size_append, size_cons]
    omega
  · intro h before c after heq hlt
    obtain ⟨mid, rfl, -⟩ | ⟨mid, rfl, hmid⟩ := List.append_eq_append_iff.1 heq
    · rw [size_append] at hlt
      omega
    · cases mid with
      | nil =>
        rw [List.append_nil] at hlt
        omega
      | cons d mid =>
        rw [List.cons_append, List.cons.injEq] at hmid
        obtain ⟨rfl, rfl⟩ := hmid
        exact h before c mid rfl

theorem Span.seenAlike_iff {text rest : List Char} {s : Span} (hstart : Text.size text = s.start) :
    s.SeenAlike (text ++ rest) ↔
      s.stop ≤ (text ++ rest).length + 1 ∧ (∀ c ∈ text, c.utf8Size = 1) ∧
        ∀ before c after, text = before ++ c :: after →
          SourceLine.Ends c (after ++ rest).head? → c = '\n' := by
  have hbefore := @Text.forall_before_iff text rest fun c next =>
    c.utf8Size = 1 ∧ (SourceLine.Ends c next → c = '\n')
  rw [hstart] at hbefore
  constructor
  · rintro ⟨hb, hstop⟩
    have hall := hbefore.1 hb
    refine ⟨hstop, fun c hc => ?_, fun before c after heq => (hall before c after heq).2⟩
    obtain ⟨before, after, heq⟩ := List.append_of_mem hc
    exact (hall before c after heq).1
  · rintro ⟨hstop, hbytes, hends⟩
    refine ⟨hbefore.2 fun before c after heq => ⟨hbytes c ?_, hends before c after heq⟩, hstop⟩
    rw [heq]
    exact List.mem_append_right before List.mem_cons_self

/-- From the end of a text on, a report counts no fewer lines than there are line feeds in the text,
and if it counts no more, it is in the line that follows the last of them. -/
theorem SourceLine.count_le_index {text rest : List Char} {l : SourceLine} {n : Nat}
    (hr : rest ≠ []) (hn : text.length ≤ n) (hle : n ≤ (text ++ rest).length)
    (hl : containing? n (ofSource (text ++ rest)) = some l) :
    text.count '\n' ≤ l.index ∧
      (l.index = text.count '\n' → l.start + (Text.lastLine text).length = text.length) := by
  -- the end of the source is in the line of its last character
  have hinside : ∃ more rest', rest' ≠ [] ∧ rest = more ++ rest' ∧
      containing? (text ++ more).length (ofSource (text ++ rest)) = some l := by
    obtain hlt | rfl := Nat.lt_or_eq_of_le hle
    · refine ⟨rest.take (n - text.length), rest.drop (n - text.length), ?_,
        (List.take_append_drop ..).symm, ?_⟩
      · rw [List.length_append] at hlt
        rw [List.ne_nil_iff_length_pos, List.length_drop]
        omega
      · rw [List.length_append] at hlt
        have htake : (text ++ rest.take (n - text.length)).length = n := by
          rw [List.length_append, List.length_take]
          omega
        rw [htake, hl]
    · obtain ⟨more, c, rfl⟩ := (List.eq_nil_or_concat' rest).resolve_left hr
      refine ⟨more, [c], List.cons_ne_nil _ _, rfl, ?_⟩
      rw [← List.append_assoc] at hl ⊢
      rwa [containing?_length] at hl
  obtain ⟨more, rest', hr', rfl, hl⟩ := hinside
  rw [← List.append_assoc] at hl
  obtain ⟨l', hl', hplace⟩ := exists_containing? (text ++ more) hr'
  obtain rfl := Option.some.inj (hl.symm.trans hl')
  have hcount := count_le_lineAfter text more rest'
  rwa [← hplace] at hcount

open SourceLine in
/-- In the line that a report finds for a place, it counts lines and characters as the position does
exactly if it sees the text before the place as the position does. -/
theorem SourceLine.place_eq_iff {text rest : List Char} {l : SourceLine} (hr : rest ≠ [])
    (hle : Text.size text ≤ (text ++ rest).length)
    (hl : containing? (Text.size text) (ofSource (text ++ rest)) = some l) :
    (text.count '\n' + 1, (Text.lastLine text).length + 1) =
        (l.index + 1, Text.size text - l.start + 1) ↔
      (∀ c ∈ text, c.utf8Size = 1) ∧
        ∀ before c after, text = before ++ c :: after → Ends c (after ++ rest).head? →
          c = '\n' := by
  have hlength := Text.length_le_size text
  obtain ⟨-, hstart⟩ := count_le_index hr hlength hle hl
  rw [← Text.size_eq_length_iff, ← lineAfter_eq_count_iff, Prod.mk.injEq]
  constructor
  · rintro ⟨hline, hcolumn⟩
    have hbytes : Text.size text = text.length := by
      have hsum := hstart (by omega)
      omega
    rw [hbytes] at hl
    obtain ⟨l', hl', hplace⟩ := exists_containing? text hr
    obtain rfl := Option.some.inj (hl.symm.trans hl')
    rw [← hplace]
    exact ⟨hbytes, by omega⟩
  · rintro ⟨hbytes, hcount⟩
    rw [hbytes] at hl ⊢
    obtain ⟨l', hl', hplace⟩ := exists_containing? text hr
    obtain rfl := Option.some.inj (hl.symm.trans hl')
    rw [← hplace] at hcount
    have hsum := hstart hcount
    omega

/-- **A report shows the position of a failure exactly if it sees the template before it as the
position does.** Before the failure there is no character of several bytes, and none but a line feed
that ends a line, and the label, read in characters, ends in the template. Otherwise the report shows
another place, or none. -/
theorem shows_position_iff {source : String} {params : Params} {mode : Mode} {d : Diagnostic}
    {span : Span} (h : renderTemplate source params mode = .error d) (hs : d.span = some span)
    (hlt : span.start < span.stop) (name : String) :
    ∃ p, d.position = some p ∧
      (d.Shows source name (p.line, p.column) ↔ span.SeenAlike source.toList) := by
  obtain ⟨span', hs', hposition, ⟨before, ⟨rest, hsource⟩, hstart⟩, hstop⟩ :=
    exists_span_of_renderTemplate h
  obtain rfl := Option.some.inj (hs.symm.trans hs')
  have hrest : rest ≠ [] := by
    rintro rfl
    have hle := hstop.le
    rw [← hsource, List.append_nil] at hle
    omega
  have hne : source.toList ≠ [] := by simp [← hsource, hrest]
  have hlocate : Position.locate source span.start = Position.after before span.start := by
    have hbefore : before <+: source.toList := ⟨rest, hsource⟩
    rw [← hstart, Position.locate_of_before hbefore]
  refine ⟨_, hposition, ?_⟩
  rw [Diagnostic.shows_iff hs hlt hne, hlocate, ← hsource, Span.seenAlike_iff hstart]
  refine and_congr_right fun hwithin => ?_
  have hle : Text.size before ≤ (before ++ rest).length := by omega
  have hlines : before ++ rest ≠ [] := List.append_ne_nil_of_right_ne_nil _ hrest
  obtain ⟨line, hline⟩ := Option.ne_none_iff_exists'.1
    (SourceLine.containing?_ne_none span.start hlines)
  rw [← hstart] at hline ⊢
  have hplace := SourceLine.place_eq_iff hrest hle hline
  rw [← hplace]
  constructor
  · rintro ⟨line', hline', heq⟩
    obtain rfl := Option.some.inj (hline.symm.trans hline')
    exact heq
  · exact fun heq => ⟨line, hline, heq⟩

/-- An `else` in no block, behind a line of its own and a carriage return with its line feed. -/
theorem shows_position_iff_behind_lines :
    ∃ d, renderTemplate "a\n\x0d\n[% else %]" .empty .html = .error d ∧
      d.span = some ⟨4, 14⟩ ∧ d.position = some ⟨4, 3, 1⟩ ∧
      d.Shows "a\n\x0d\n[% else %]" "template" (3, 1) := by
  have hparse : Document.parse Document.defaultNesting "a\n\x0d\n[% else %]" =
      .error ⟨.unopened .elseK, ⟨4, 14⟩⟩ := by cbv
  have hposition : Position.locate "a\n\x0d\n[% else %]" 4 = ⟨4, 3, 1⟩ := by cbv
  have h := renderTemplate_of_parse_error hparse .empty .html
  obtain ⟨p, hp, hshows⟩ := shows_position_iff h rfl (by decide) "template"
  have hp' : p = ⟨4, 3, 1⟩ := by
    rw [← hposition]
    exact (Option.some.inj hp).symm
  subst hp'
  refine ⟨_, h, rfl, hp, hshows.2 ?_⟩
  have htext : ("a\n\x0d\n[% else %]" : String).toList =
      ['a', '\n', '\x0d', '\n'] ++ "[% else %]".toList := by cbv
  have hbytes : ∀ c ∈ ['a', '\n', '\x0d', '\n'], c.utf8Size = 1 :=
    Text.size_eq_length_iff.1 rfl
  have hlines := (SourceLine.lineAfter_eq_count_iff ['a', '\n', '\x0d', '\n']
    "[% else %]".toList).1 (by cbv)
  rw [htext]
  exact (Span.seenAlike_iff (by decide)).2 ⟨by decide, hbytes, hlines⟩

/-- A letter of two bytes before the failure: the position is in column 2, the report shows
column 3. -/
theorem shows_another_column :
    ∃ d, renderTemplate "é[% else %]" .empty .html = .error d ∧ d.span = some ⟨2, 12⟩ ∧
      d.position = some ⟨2, 1, 2⟩ ∧ d.Shows "é[% else %]" "template" (1, 3) ∧
      ¬ d.Shows "é[% else %]" "template" (1, 2) := by
  have hparse : Document.parse Document.defaultNesting "é[% else %]" =
      .error ⟨.unopened .elseK, ⟨2, 12⟩⟩ := by cbv
  have hposition : Position.locate "é[% else %]" 2 = ⟨2, 1, 2⟩ := by cbv
  have hline : SourceLine.containing? 2 (SourceLine.ofSource "é[% else %]".toList) =
      some ⟨0, 0, "é[% else %]".toList⟩ := by cbv
  have hshows : ((Diagnostic.ofParseError ⟨.unopened .elseK, ⟨2, 12⟩⟩).locate
      "é[% else %]").Shows "é[% else %]" "template" (1, 3) :=
    (Diagnostic.shows_iff rfl (by decide) (by decide)).2 ⟨by decide, _, hline, rfl⟩
  exact ⟨_, renderTemplate_of_parse_error hparse .empty .html, rfl, congrArg some hposition,
    hshows, fun hother => absurd (hshows.unique hother) (by decide)⟩

end Stencil
