import Stencil.Proofs.Token.Brackets
import Stencil.Proofs.Weld

/-!
# Scanning two texts

A text that is scanned to its end leaves the scanner where it began, in literal text. So the
tokens of two texts, the second put after the first, are the tokens of the first welded to
those of the second at its place (`scanFrom_append`), and a text further on has the same tokens
further on (`scanFrom_shift`). An error of the second text is the error of both.
-/

namespace Stencil

namespace Token

/-! ### A text further on -/

/-- The region of a scanner that stands `n` bytes further on. -/
def Region.shift (n : Nat) : Region → Region
  | .outside => .outside
  | .inside k start => .inside k (start + n)

theorem literal_shift (n pos : Nat) (cs : List Char) :
    literal (pos + n) cs = (literal pos cs).map (·.shift n) := by
  unfold literal
  split
  · rfl
  · simp [Spanned.shift, Span.shift, Nat.add_right_comm]

theorem scanFrom_shift (n : Nat) (r : Region) (pos : Nat) (cs : List Char) :
    scanFrom (r.shift n) (pos + n) cs =
      mapBoth (·.shift n) (List.map (·.shift n)) (scanFrom r pos cs) := by
  induction r, pos, cs using scan_induction with
  | rest pos cs hm =>
    simp only [Region.shift]
    rw [scanFrom_rest hm, scanFrom_rest hm, literal_shift, mapBoth_ok]
  | opening pos cs before k rest hm ih =>
    have hstart : pos + n + Text.size before = pos + Text.size before + n := Nat.add_right_comm ..
    have hrest : pos + Text.size before + n + Construct.markSize =
        pos + Text.size before + Construct.markSize + n := Nat.add_right_comm ..
    simp only [Region.shift] at ih ⊢
    rw [scanFrom_opening hm, scanFrom_opening hm, hstart, hrest]
    split_ifs
    · rw [ih, map_mapBoth, mapBoth_map]
      simp only [literal_shift, List.map_append, List.map_cons]
      rfl
    · rfl
  | nil k start pos =>
    simp only [Region.shift, scanFrom_nil, mapBoth_error, ParseError.shift, Span.shift,
      Nat.add_right_comm]
  | blank k start pos c cs hb ih =>
    simp only [Region.shift] at ih ⊢
    rw [scanFrom_blank hb, scanFrom_blank hb, Nat.add_right_comm, ih]
  | unknown k start pos c cs found hb hr =>
    simp only [Region.shift]
    rw [scanFrom_unknown hb hr, scanFrom_unknown hb hr, Nat.add_right_comm]
    rfl
  | token k start pos t text rest ht he ih =>
    have hr : (if t = k.closeToken then Region.outside else .inside k (start + n)) =
        Region.shift n (if t = k.closeToken then .outside else .inside k start) := by
      split_ifs <;> rfl
    simp only [Region.shift]
    rw [scanFrom_token ht he, scanFrom_token ht he, hr, Nat.add_right_comm, ih,
      map_mapBoth, mapBoth_map]
    rfl

/-! ### A text after another -/

theorem size_openText (k : Construct) : Text.size k.openText = Construct.markSize := by
  cases k <;> decide

theorem text?_openToken (k : Construct) (span : Span) :
    Literal.text? (⟨k.openToken, span⟩ : Spanned Token) = none :=
  text?_token_eq_none (by cases k <;> simp [Construct.openToken])

theorem text?_closeToken (k : Construct) (span : Span) :
    Literal.text? (⟨k.closeToken, span⟩ : Spanned Token) = none :=
  text?_token_eq_none (by cases k <;> simp [Construct.closeToken])

/-- Literal text that another follows is one text with it. -/
theorem weld_literal (pos : Nat) (cs ds : List Char) {us : List (Spanned Token)}
    (hu : ∀ u ∈ us.head?, Literal.text? u = none) :
    weld (literal pos cs) (literal (pos + Text.size cs) ds ++ us) =
      literal pos (cs ++ ds) ++ us := by
  cases cs with
  | nil => rfl
  | cons c cs =>
    cases ds with
    | nil =>
      rw [List.append_nil]
      exact weld_of_head? hu _
    | cons d ds =>
      simp only [literal, List.isEmpty_cons, Bool.false_eq_true, if_false, List.cons_append,
        List.nil_append]
      rw [weld_singleton rfl rfl, ← String.ofList_append, ← List.cons_append, Text.size_append,
        Nat.add_assoc]
      rfl

theorem scanFrom_outside_append {cs ds : List Char} (hm : nextMarker cs = none) (hs : Seam cs ds)
    (pos : Nat) :
    scanFrom .outside pos (cs ++ ds) =
      weld (literal pos cs) <$> scanFrom .outside (pos + Text.size cs) ds := by
  cases hd : nextMarker ds with
  | none =>
    rw [scanFrom_rest hd, map_ok, scanFrom_rest (by rw [nextMarker_append hm hs, hd]; rfl)]
    have hweld : weld (literal pos cs) (literal (pos + Text.size cs) ds ++ []) =
        literal pos (cs ++ ds) ++ [] :=
      weld_literal pos cs ds (by simp)
    simp only [List.append_nil] at hweld
    rw [hweld]
  | some m =>
    obtain ⟨before, k, rest⟩ := m
    have h : nextMarker (cs ++ ds) = some (cs ++ before, k, rest) := by
      rw [nextMarker_append hm hs, hd]
      rfl
    rw [scanFrom_opening hd, scanFrom_opening h, Text.size_append, ← Nat.add_assoc]
    split_ifs
    · rw [← comp_map]
      congr 1
      funext ts
      exact (weld_literal pos cs before (by simpa using text?_openToken k _)).symm
    · rfl

theorem Scans.ne_nil {k : Construct} {start pos : Nat} {cs : List Char} {ts : List (Spanned Token)}
    (h : Scans (.inside k start) pos cs ts) : cs ≠ [] := by
  rintro rfl
  have := scanFrom_of_scans h
  rw [scanFrom_nil] at this
  cases this

/-- **The tokens of two texts are those of the first and, after them, those of the second.** -/
theorem scanFrom_append {r : Region} {pos : Nat} {cs ds : List Char} {ts : List (Spanned Token)}
    (h : Scans r pos cs ts) (hs : Seam cs ds) :
    scanFrom r pos (cs ++ ds) = weld ts <$> scanFrom .outside (pos + Text.size cs) ds := by
  induction h with
  | rest hm => exact scanFrom_outside_append hm hs _
  | @opening pos cs before rest k ts hm h ih =>
    obtain ⟨rfl, hb, hk⟩ := nextMarker_eq_some_iff.1 hm
    have hm' : nextMarker (before ++ k.openText ++ rest ++ ds) = some (before, k, rest ++ ds) :=
      nextMarker_eq_some_iff.2 ⟨List.append_assoc .., hb, hk⟩
    rw [scanFrom_opening hm', if_pos (occurs_append_left h.occurs_closeMark), ih hs.of_append,
      ← comp_map, Text.size_append, Text.size_append, size_openText, ← Nat.add_assoc,
      ← Nat.add_assoc]
    congr 1
    funext us
    rw [weld_append (by simp), weld_cons (text?_openToken k _)]
    rfl
  | @blank k start pos c cs ts hb h ih =>
    have hs' : Seam ([c] ++ cs) ds := hs
    rw [List.cons_append, scanFrom_blank hb, ih hs'.of_append, Text.size_cons, Nat.add_assoc]
  | @inner k start pos t text rest ts ht he hk h ih =>
    rw [List.append_assoc, scanFrom_token ht (he.append_right h.ne_nil ds), if_neg hk,
      ih hs.of_append, ← comp_map, Text.size_append, Nat.add_assoc]
    congr 1
    funext us
    exact (weld_cons (text?_token_eq_none ht.ne_text) ts us).symm
  | @closing k start pos rest ts h ih =>
    rw [List.append_assoc, scanFrom_token (spelled_closeToken_iff.2 rfl) (endsBefore_closeText k _),
      if_pos rfl, size_closeText, ih hs.of_append, ← comp_map, Text.size_append, size_closeText,
      Nat.add_assoc]
    congr 1
    funext us
    exact (weld_cons (text?_closeToken k _) ts us).symm

end Token

end Stencil
