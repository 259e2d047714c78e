import Stencil.Proofs.Except
import Stencil.Proofs.Token.Lexeme
import Stencil.Proofs.Token.Marker

/-!
# How a template is scanned

`Token.Scans` says how the tokens of a text come about, one rule for each step of the scanner:
literal text up to a marker or to the end, the blanks inside a construct, its tokens, and its
close marker. The scanner succeeds exactly in this way (`scanFrom_eq_ok_iff`), and what holds
of every scanned template is proved by induction on the steps.
-/

namespace Stencil

namespace Token

/-- From byte offset `pos` on, and standing where the region says, the text `cs` is scanned
into the tokens `ts`. -/
inductive Scans : Region → Nat → List Char → List (Spanned Token) → Prop where
  /-- No construct follows. -/
  | rest {pos : Nat} {cs : List Char} (h : nextMarker cs = none) :
      Scans .outside pos cs (literal pos cs)
  /-- A construct is opened after the text `before`. -/
  | opening {pos : Nat} {cs before rest : List Char} {k : Construct} {ts : List (Spanned Token)}
      (hm : nextMarker cs = some (before, k, rest))
      (h : Scans (.inside k (pos + Text.size before))
      (pos + Text.size before + Construct.markSize) rest ts) :
      Scans .outside pos cs
        (literal pos before ++
          ⟨k.openToken, pos + Text.size before, pos + Text.size before + Construct.markSize⟩ :: ts)
  /-- A blank is skipped. -/
  | blank {k : Construct} {start pos : Nat} {c : Char} {cs : List Char} {ts : List (Spanned Token)}
      (hb : isBlank c) (h : Scans (.inside k start) (pos + c.utf8Size) cs ts) :
      Scans (.inside k start) pos (c :: cs) ts
  /-- A token of the construct is read. -/
  | inner {k : Construct} {start pos : Nat} {t : Token} {text rest : List Char}
      {ts : List (Spanned Token)}
      (ht : t.Spelled text) (he : EndsBefore text rest) (hk : t ≠ k.closeToken)
      (h : Scans (.inside k start) (pos + Text.size text) rest ts) :
      Scans (.inside k start) pos (text ++ rest) (⟨t, pos, pos + Text.size text⟩ :: ts)
  /-- The construct is closed. -/
  | closing {k : Construct} {start pos : Nat} {rest : List Char} {ts : List (Spanned Token)}
      (h : Scans .outside (pos + Construct.markSize) rest ts) :
      Scans (.inside k start) pos (k.closeText ++ rest)
      (⟨k.closeToken, pos, pos + Construct.markSize⟩ :: ts)

/-! ### The steps are those of the scanner -/

theorem Spelled.exists_cons {t : Token} {text : List Char} (h : t.Spelled text) :
    ∃ c cs, text = c :: cs ∧ isBlank c = false := by
  cases h with
  | name hc _ =>
    refine ⟨_, _, rfl, ?_⟩
    rw [← Bool.not_eq_true]
    intro hb
    simp only [isBlank, Bool.or_eq_true, beq_iff_eq] at hb
    rcases hb with ((rfl | rfl) | rfl) | rfl <;> exact absurd hc (by decide)
  | string hq _ => rcases hq with rfl | rfl <;> exact ⟨_, _, rfl, by decide⟩
  | _ => exact ⟨_, _, rfl, by decide⟩

/-- A close marker has one text. -/
theorem spelled_closeToken_iff {k : Construct} {text : List Char} :
    k.closeToken.Spelled text ↔ text = k.closeText := by
  constructor
  · intro h
    generalize ht : k.closeToken = t at h
    cases h with
    | @name c cs _ _ =>
      have := isWord_ofName (String.ofList (c :: cs))
      rw [← ht] at this
      cases k <;> exact absurd this (by decide)
    | _ => cases k <;> simp_all [Construct.closeToken, Construct.closeText, Construct.closeMark]
  · rintro rfl
    cases k
    · exact .directiveClose
    · exact .interpolationClose

theorem endsBefore_closeText (k : Construct) (rest : List Char) : EndsBefore k.closeText rest :=
  endsBefore_of_last (a := ']') (by cases k <;> rfl) (by decide)

@[simp] theorem size_closeText (k : Construct) : Text.size k.closeText = Construct.markSize := by
  cases k <;> decide

theorem Scans.occurs_closeMark {k : Construct} {start pos : Nat} {cs : List Char}
    {ts : List (Spanned Token)} (h : Scans (.inside k start) pos cs ts) :
    occurs k.closeMark cs := by
  generalize hr : Region.inside k start = r at h
  induction h with
  | rest | opening => simp at hr
  | @blank _ _ _ c _ _ _ _ ih => exact occurs_append_right [c] (ih hr)
  | inner _ _ _ _ ih => exact occurs_append_right _ (ih hr)
  | closing _ =>
    cases hr
    exact occurs_closeText k _

/-! ### What the scanner does in each step -/

theorem scanFrom_rest {pos : Nat} {cs : List Char} (h : nextMarker cs = none) :
    scanFrom .outside pos cs = .ok (literal pos cs) := by
  rw [scanFrom]
  split
  · rfl
  · next hm => rw [h] at hm; cases hm

theorem scanFrom_opening {pos : Nat} {cs before rest : List Char} {k : Construct}
    (h : nextMarker cs = some (before, k, rest)) :
    scanFrom .outside pos cs =
      if occurs k.closeMark rest then
        (fun ts => literal pos before ++
          ⟨k.openToken, pos + Text.size before, pos + Text.size before + Construct.markSize⟩ ::
          ts) <$>
          scanFrom (.inside k (pos + Text.size before))
          (pos + Text.size before + Construct.markSize) rest
      else .error ⟨.unterminated k, pos + Text.size before,
        pos + Text.size before + Construct.markSize⟩ := by
  rw [scanFrom]
  split
  · next hm => rw [h] at hm; cases hm
  · next before' k' rest' hm =>
    rw [h] at hm
    cases hm
    simp only [bind_pure_comp]

theorem scanFrom_nil (k : Construct) (start pos : Nat) :
    scanFrom (.inside k start) pos [] =
      .error ⟨.unterminated k, start, start + Construct.markSize⟩ := by
  rw [scanFrom]

theorem scanFrom_blank {c : Char} (hb : isBlank c) (k : Construct) (start pos : Nat)
    (cs : List Char) :
    scanFrom (.inside k start) pos (c :: cs) =
      scanFrom (.inside k start) (pos + c.utf8Size) cs := by
  rw [scanFrom, if_pos hb]

theorem scanFrom_token {t : Token} {text rest : List Char} (ht : t.Spelled text)
    (he : EndsBefore text rest) (k : Construct) (start pos : Nat) :
    scanFrom (.inside k start) pos (text ++ rest) =
      (⟨t, pos, pos + Text.size text⟩ :: ·) <$>
        scanFrom (if t = k.closeToken then .outside else .inside k start)
        (pos + Text.size text) rest := by
  have hr := Lexeme.read_of_spelled ht he
  obtain ⟨c, cs, rfl, hb⟩ := ht.exists_cons
  rw [List.cons_append] at hr ⊢
  rw [scanFrom, if_neg (by simp [hb])]
  split
  · next h => rw [hr] at h; cases h
  · next h =>
    rw [hr] at h
    cases h
    simp only [bind_pure_comp]

theorem scanFrom_unknown {c : Char} {cs found : List Char} (hb : isBlank c = false)
    (h : Lexeme.read (c :: cs) = .unknown found) (k : Construct) (start pos : Nat) :
    scanFrom (.inside k start) pos (c :: cs) =
      .error ⟨.unexpectedCharacter (String.ofList found) k, pos, pos + Text.size found⟩ := by
  rw [scanFrom, if_neg (by simp [hb])]
  split
  · next h' => rw [h] at h'; cases h'; rfl
  · next h' => rw [h] at h'; cases h'

/-- Induction on what is scanned: outside by the next marker, inside a construct by what comes
first. -/
theorem scan_induction {P : Region → Nat → List Char → Prop}
    (rest : ∀ pos cs, nextMarker cs = none → P .outside pos cs)
    (opening : ∀ pos cs before k rest, nextMarker cs = some (before, k, rest) →
      P (.inside k (pos + Text.size before)) (pos + Text.size before + Construct.markSize) rest →
      P .outside pos cs)
    (nil : ∀ k start pos, P (.inside k start) pos [])
    (blank : ∀ k start pos c cs, isBlank c → P (.inside k start) (pos + c.utf8Size) cs →
      P (.inside k start) pos (c :: cs))
    (unknown : ∀ k start pos c cs found, isBlank c = false →
      Lexeme.read (c :: cs) = .unknown found → P (.inside k start) pos (c :: cs))
    (token : ∀ k start pos t text rest, Spelled t text → EndsBefore text rest →
      P (if t = k.closeToken then .outside else .inside k start) (pos + Text.size text) rest →
      P (.inside k start) pos (text ++ rest))
    (r : Region) (pos : Nat) (cs : List Char) : P r pos cs := by
  induction hn : cs.length using Nat.strongRecOn generalizing r pos cs with
  | ind n ih =>
    subst hn
    cases r with
    | outside =>
      cases hm : nextMarker cs with
      | none => exact rest pos cs hm
      | some m => exact opening pos cs _ _ _ hm (ih _ (nextMarker_length_lt hm) _ _ _ rfl)
    | inside k start =>
      cases cs with
      | nil => exact nil k start pos
      | cons c cs =>
        by_cases hb : isBlank c
        · exact blank k start pos c cs hb (ih _ (Nat.lt_succ_self _) _ _ _ rfl)
        · cases hr : Lexeme.read (c :: cs) with
          | unknown found => exact unknown k start pos c cs found (by simpa using hb) hr
          | token t text rest =>
            have hlt := Lexeme.read_length_lt hr
            obtain ⟨heq, ht, he⟩ := Lexeme.read_eq_token_iff.1 hr
            rw [heq]
            exact token k start pos t text rest ht he (ih _ hlt _ _ _ rfl)

theorem scanFrom_of_scans {r : Region} {pos : Nat} {cs : List Char} {ts : List (Spanned Token)}
    (h : Scans r pos cs ts) : scanFrom r pos cs = .ok ts := by
  induction h with
  | rest h => exact scanFrom_rest h
  | opening hm h ih => rw [scanFrom_opening hm, if_pos h.occurs_closeMark, ih, map_ok]
  | blank hb _ ih => rw [scanFrom_blank hb, ih]
  | inner ht he hk _ ih => rw [scanFrom_token ht he, if_neg hk, ih, map_ok]
  | @closing k _ _ rest _ _ ih =>
    rw [scanFrom_token (spelled_closeToken_iff.2 rfl) (endsBefore_closeText k rest), if_pos rfl,
      size_closeText, ih, map_ok]

theorem scans_of_scanFrom {r : Region} {pos : Nat} {cs : List Char} {ts : List (Spanned Token)}
    (h : scanFrom r pos cs = .ok ts) : Scans r pos cs ts := by
  induction r, pos, cs using scan_induction generalizing ts with
  | rest pos cs hm =>
    rw [scanFrom_rest hm, Except.ok.injEq] at h
    exact h ▸ .rest hm
  | opening pos cs before k rest hm ih =>
    rw [scanFrom_opening hm] at h
    split_ifs at h with hc
    obtain ⟨more, hs, rfl⟩ := map_eq_ok_iff.1 h
    exact .opening hm (ih hs)
  | nil k start pos =>
    rw [scanFrom_nil] at h
    cases h
  | blank k start pos c cs hb ih =>
    rw [scanFrom_blank hb] at h
    exact .blank hb (ih h)
  | unknown k start pos c cs found hb hr =>
    rw [scanFrom_unknown hb hr] at h
    cases h
  | token k start pos t text rest ht he ih =>
    rw [scanFrom_token ht he] at h
    obtain ⟨more, hs, rfl⟩ := map_eq_ok_iff.1 h
    have hscans := ih hs
    split_ifs at hscans with hk
    · subst hk
      rw [spelled_closeToken_iff] at ht
      subst ht
      rw [size_closeText] at hscans ⊢
      exact .closing hscans
    · exact .inner ht he hk hscans

/-- **The scanner succeeds by these steps and in no other way.** -/
theorem scanFrom_eq_ok_iff {r : Region} {pos : Nat} {cs : List Char} {ts : List (Spanned Token)} :
    scanFrom r pos cs = .ok ts ↔ Scans r pos cs ts :=
  ⟨scans_of_scanFrom, scanFrom_of_scans⟩

end Token

end Stencil
