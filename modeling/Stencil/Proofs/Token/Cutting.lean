import Mathlib.Data.List.Basic
import Stencil.Position
import Stencil.Proofs.Token.Concatenation

/-!
# Cutting a text between constructs

Putting two texts together puts their tokens together. The other way round, the tokens of a text can
be cut wherever whole texts and constructs end, and the text is then cut at one place with them: its
first part is scanned into the tokens before the cut, and its second part into those after it
(`Scans.cut`). So a construct can be taken out of a text, and another text put in its place.
-/

namespace Stencil

open Literal

/-! ### Byte offsets -/

namespace Text

/-- The characters from byte offset `n` on, where `n` is a character boundary of the text. -/
def after? (cs : List Char) (n : Nat) : Option (List Char) :=
  (before? cs n).map fun before => cs.drop before.length

/-- The text with `new` in the place of the bytes of a span, where this starts and stops at
character boundaries. -/
def splice? (cs : List Char) (span : Span) (new : List Char) : Option (List Char) := do
  let before ← before? cs span.start
  let after ← after? cs span.stop
  return before ++ new ++ after

theorem before?_append (a b : List Char) : before? (a ++ b) (size a) = some a := by
  induction a with
  | nil => cases b <;> rfl
  | cons c cs ih =>
    obtain ⟨n, hn⟩ := Nat.exists_eq_succ_of_ne_zero (Text.size_pos (List.cons_ne_nil c cs)).ne'
    have hc := Text.size_cons c cs
    have hrest : n + 1 - c.utf8Size = size cs := by omega
    rw [hn, List.cons_append, before?, if_pos (by omega), hrest, ih]
    rfl

theorem after?_append (a b : List Char) : after? (a ++ b) (size a) = some b := by
  rw [after?, before?_append, Option.map_some, List.drop_left]

theorem splice?_append (a old b new : List Char) :
    splice? (a ++ old ++ b) ⟨size a, size (a ++ old)⟩ new = some (a ++ new ++ b) := by
  have hbefore : before? (a ++ old ++ b) (size a) = some a := by
    rw [List.append_assoc, before?_append]
  simp only [splice?, hbefore, after?_append, Option.bind_eq_bind, Option.bind_some]
  rfl

end Text

namespace Token

/-! ### Where the tokens of a text begin and end -/

theorem scans_nil (pos : Nat) : Scans .outside pos [] [] := .rest rfl

theorem Scans.tokens_ne_nil {k : Construct} {start pos : Nat} {cs : List Char}
    {ts : List (Spanned Token)} (h : Scans (.inside k start) pos cs ts) : ts ≠ [] := by
  obtain ⟨inner, closing, more, rfl, -⟩ := h.bracketedIn
  exact List.append_ne_nil_of_right_ne_nil _ (List.cons_ne_nil _ _)

theorem Scans.eq_nil {pos : Nat} {cs : List Char} {ts : List (Spanned Token)}
    (h : Scans .outside pos cs ts) (ht : ts = []) : cs = [] := by
  cases h with
  | rest hm =>
    cases cs with
    | nil => rfl
    | cons c cs => cases ht
  | opening hm h => exact absurd ht (List.append_ne_nil_of_right_ne_nil _ (List.cons_ne_nil _ _))

/-- The first token of a text begins where the text does. -/
theorem Scans.start_eq {pos : Nat} {cs : List Char} {ts : List (Spanned Token)}
    (h : Scans .outside pos cs ts) : ∀ t ∈ ts.head?, t.span.start = pos := by
  cases h with
  | rest hm =>
    cases cs with
    | nil => exact nofun
    | cons c cs =>
      rintro t ⟨⟩
      rfl
  | @opening _ _ before rest k ts hm h =>
    cases before with
    | nil =>
      rintro t ⟨⟩
      rfl
    | cons c cs =>
      rintro t ⟨⟩
      rfl

/-- The last token of a text ends where the text does. -/
theorem Scans.stop_eq {r : Region} {pos : Nat} {cs : List Char} {ts : List (Spanned Token)}
    (h : Scans r pos cs ts) : ∀ t ∈ ts.getLast?, t.span.stop = pos + Text.size cs := by
  induction h with
  | @rest pos cs hm =>
    cases cs with
    | nil => exact nofun
    | cons c cs =>
      rintro t ⟨⟩
      rfl
  | @opening pos cs before rest k ts hm h ih =>
    obtain ⟨rfl, -, -⟩ := nextMarker_eq_some_iff.1 hm
    rw [List.append_cons, List.getLast?_append_of_ne_nil _ h.tokens_ne_nil]
    intro t ht
    rw [ih t ht, Text.size_append, Text.size_append, size_openText]
    omega
  | blank hb h ih =>
    intro t ht
    rw [ih t ht, Text.size_cons, Nat.add_assoc]
  | @inner k start pos t text rest ts ht he hk h ih =>
    rw [← List.singleton_append, List.getLast?_append_of_ne_nil _ h.tokens_ne_nil]
    intro u hu
    rw [ih u hu, Text.size_append, Nat.add_assoc]
  | @closing k start pos rest ts h ih =>
    cases ts with
    | nil =>
      rintro t ⟨⟩
      obtain rfl := h.eq_nil rfl
      rw [Text.size_append, size_closeText]
      rfl
    | cons u us =>
      rw [List.getLast?_cons_cons]
      intro t ht
      rw [ih t ht, Text.size_append, size_closeText, Nat.add_assoc]

/-! ### The cut -/

/-- The text `cs` is cut into `before` and `after`, and its tokens into those of `before` and those
of `after`. -/
structure Cut (r : Region) (pos : Nat) (cs : List Char) (ts us : List (Spanned Token))
    (before after : List Char) : Prop where
  /-- The text is cut in two. -/
  text_eq : cs = before ++ after
  /-- The tokens of the first part. -/
  first : Scans r pos before ts
  /-- The tokens of the second part. -/
  second : Scans .outside (pos + Text.size before) after us
  /-- Before a construct there is no bracket, which would have been a part of its marker. -/
  last : ∀ u ∈ us.head?, text? u = none → before.getLast? ≠ some '['

theorem cut_nil {pos : Nat} {cs : List Char} {ts : List (Spanned Token)}
    (h : Scans .outside pos cs ts) : Cut .outside pos cs [] ts [] cs :=
  ⟨rfl, scans_nil pos, h, fun _ _ _ => nofun⟩

/-- A cut is not inside of literal text. -/
theorem append_eq_literal_append {pos : Nat} {cs : List Char} {ts us more : List (Spanned Token)}
    (h : ts ++ us = literal pos cs ++ more) :
    ts = [] ∨ ∃ ts', ts = literal pos cs ++ ts' ∧ more = ts' ++ us := by
  cases ts with
  | nil => exact .inl rfl
  | cons t ts =>
    refine .inr ?_
    cases cs with
    | nil => exact ⟨t :: ts, rfl, h.symm⟩
    | cons c cs =>
      cases h
      exact ⟨ts, rfl, rfl⟩

theorem scans_openText {k : Construct} {pos : Nat} {rest : List Char} {ts : List (Spanned Token)}
    (h : Scans (.inside k pos) (pos + Construct.markSize) rest ts) :
    Scans .outside pos (k.openText ++ rest)
      (⟨k.openToken, pos, pos + Construct.markSize⟩ :: ts) :=
  @Scans.opening pos _ [] rest k ts (nextMarker_eq_some_iff.2 ⟨rfl, rfl, seam_nil_left _⟩) h

/-- The cut of a text is one of a text that begins with more. -/
theorem Cut.extend {r r' : Region} {pos pos' : Nat} {cs before after : List Char}
    {ts ts' us : List (Spanned Token)} (h : Cut r pos cs ts us before after) (text : List Char)
    (hp : pos = pos' + Text.size text) (hf : Scans r' pos' (text ++ before) ts')
    (hl : before = [] → ∀ u ∈ us.head?, text? u = none → text.getLast? ≠ some '[') :
    Cut r' pos' (text ++ cs) ts' us (text ++ before) after where
  text_eq := by rw [h.text_eq, List.append_assoc]
  first := hf
  second := by
    rw [Text.size_append, ← Nat.add_assoc, ← hp]
    exact h.second
  last := by
    intro u hu ht
    by_cases hb : before = []
    · rw [hb, List.append_nil]
      exact hl hb u hu ht
    · rw [List.getLast?_append_of_ne_nil _ hb]
      exact h.last u hu ht

/-- **The tokens of a text can be cut between whole texts and constructs**, and the text with
them. -/
theorem Scans.cut {r : Region} {pos : Nat} {cs : List Char} {ts us : List (Spanned Token)}
    (h : Scans r pos cs (ts ++ us)) (hb : BracketedIn ts r) :
    ∃ before after, Cut r pos cs ts us before after := by
  generalize hts : ts ++ us = all at h
  induction h generalizing ts with
  | @rest pos cs hm =>
    obtain rfl | ⟨ts', rfl, hnil⟩ := append_eq_literal_append (hts.trans (List.append_nil _).symm)
    · subst hts
      exact ⟨[], cs, cut_nil (.rest hm)⟩
    · obtain ⟨rfl, rfl⟩ := List.append_eq_nil_iff.1 hnil.symm
      rw [List.append_nil]
      exact ⟨cs, [], (List.append_nil cs).symm, .rest hm, scans_nil _, nofun⟩
  | @opening pos cs text rest k more hm h ih =>
    -- the cut is in front of the literal text, behind it, or in what follows the opening marker
    obtain rfl | ⟨ts', rfl, hmore⟩ := append_eq_literal_append hts
    · subst hts
      exact ⟨[], cs, cut_nil (.opening hm h)⟩
    obtain ⟨rfl, htext, hseam⟩ := nextMarker_eq_some_iff.1 hm
    cases ts' with
    | nil =>
      obtain rfl : us = _ := hmore.symm
      rw [List.append_nil]
      refine ⟨text, k.openText ++ rest, List.append_assoc .., .rest htext, scans_openText h, ?_⟩
      exact fun _ _ _ hl => hseam ⟨hl, .inl (by cases k <;> rfl)⟩
    | cons u ts' =>
      cases hmore
      obtain ⟨before, after, hcut⟩ := ih hb.of_literal_append.closes rfl
      have hm' : nextMarker (text ++ k.openText ++ before) = some (text, k, before) :=
        nextMarker_eq_some_iff.2 ⟨rfl, htext, hseam⟩
      refine ⟨_, after, hcut.extend (text ++ k.openText) ?_ (.opening hm' hcut.first)
        fun hn => absurd hn hcut.first.ne_nil⟩
      rw [Text.size_append, size_openText, Nat.add_assoc]
  | @blank k start pos c cs more hblank h ih =>
    obtain ⟨before, after, hcut⟩ := ih hb hts
    exact ⟨_, after, hcut.extend [c] (by simp) (.blank hblank hcut.first)
      fun hn => absurd hn hcut.first.ne_nil⟩
  | @inner k start pos t text rest more ht he hk h ih =>
    obtain ⟨u, ts, rfl⟩ := Closes.exists_cons hb
    cases hts
    obtain ⟨before, after, hcut⟩ := ih (Closes.of_cons hb hk) rfl
    rw [hcut.text_eq] at he
    have hend : EndsBefore text before := EndsBefore.of_append he
    exact ⟨_, after, hcut.extend text rfl (.inner ht hend hk hcut.first)
      fun hn => absurd hn hcut.first.ne_nil⟩
  | @closing k start pos rest more h ih =>
    obtain ⟨u, ts, rfl⟩ := Closes.exists_cons hb
    cases hts
    obtain ⟨before, after, hcut⟩ := ih (Closes.of_closing hb) rfl
    refine ⟨_, after, hcut.extend k.closeText (by rw [size_closeText]) (.closing hcut.first) ?_⟩
    intro _ _ _ _
    cases k <;> decide

/-- **A construct can be cut out of a text.** Its tokens say where it stands, the text before it
does not end in an opening bracket, and both the text before it and the text after it are scanned by
themselves. -/
theorem Scans.cut_construct {pos : Nat} {cs : List Char} {ts us inner : List (Spanned Token)}
    {k : Construct} {opening closing : Span}
    (h : Scans .outside pos cs
      (ts ++ ⟨k.openToken, opening⟩ :: (inner ++ ⟨k.closeToken, closing⟩ :: us)))
    (hts : Bracketed ts) (hi : ∀ t ∈ inner, Inside k t.node)
    (hw : closing.stop = closing.start + Construct.markSize) :
    ∃ before old after, cs = before ++ old ++ after ∧ Scans .outside pos before ts ∧
      Scans .outside (pos + Text.size (before ++ old)) after us ∧ before.getLast? ≠ some '[' ∧
      opening.start = pos + Text.size before ∧ closing.stop = pos + Text.size (before ++ old) := by
  obtain ⟨before, more, hcut⟩ := h.cut hts
  have hsecond := hcut.second
  have hstart := hsecond.start_eq _ rfl
  rw [← List.singleton_append, List.append_cons inner, ← List.append_assoc] at hsecond
  obtain ⟨old, after, hcut'⟩ := hsecond.cut (.construct hi hw .nil)
  refine ⟨before, old, after, ?_, hcut.first, ?_, hcut.last _ rfl (text?_openToken k opening),
    hstart, ?_⟩
  · rw [hcut.text_eq, hcut'.text_eq, List.append_assoc]
  · rw [Text.size_append, ← Nat.add_assoc]
    exact hcut'.second
  · rw [Text.size_append, ← Nat.add_assoc]
    refine hcut'.first.stop_eq ⟨k.closeToken, closing⟩ ?_
    rw [← List.append_assoc, List.getLast?_append_cons]
    rfl

end Token

end Stencil
