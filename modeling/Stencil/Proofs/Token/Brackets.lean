import Stencil.Item
import Stencil.Proofs.Token.Scanning

/-!
# Tokens are bracketed

The tokens of a scanned template are stretches of literal text and whole constructs: an opening
marker, tokens that are neither literal text nor the marker that closes it, and that marker
(`Scans.bracketed`). Items are made from such tokens one text or construct at a time, which is
what `ofTokens_text` and `ofTokens_construct` say.
-/

namespace Stencil

namespace Token

/-- A token that may stand inside a construct before the marker that closes it. -/
def Inside (k : Construct) (t : Token) : Prop := t ≠ k.closeToken ∧ ∀ s, t ≠ .text s

/-- Tokens that are whole texts and constructs. -/
inductive Bracketed : List (Spanned Token) → Prop where
  /-- No tokens. -/
  | nil : Bracketed []
  /-- Literal text. -/
  | text {s : String} {span : Span} {ts : List (Spanned Token)} (h : Bracketed ts) :
      Bracketed (⟨.text s, span⟩ :: ts)
  /-- A construct. Its close marker is as wide as a marker is. -/
  | construct {k : Construct} {opening closing : Span} {inner ts : List (Spanned Token)}
      (hi : ∀ t ∈ inner, Inside k t.node) (hw : closing.stop = closing.start + Construct.markSize)
      (h : Bracketed ts) :
      Bracketed (⟨k.openToken, opening⟩ :: (inner ++ ⟨k.closeToken, closing⟩ :: ts))

/-- Tokens that go on inside a construct: what is left of it, and whole texts and constructs
after that. -/
def Closes (k : Construct) (ts : List (Spanned Token)) : Prop :=
  ∃ (inner : List (Spanned Token)) (closing : Span) (more : List (Spanned Token)),
    ts = inner ++ ⟨k.closeToken, closing⟩ :: more ∧ (∀ t ∈ inner, Inside k t.node) ∧
      closing.stop = closing.start + Construct.markSize ∧ Bracketed more

/-- What holds of the tokens in each region. -/
def BracketedIn (ts : List (Spanned Token)) : Region → Prop
  | .outside => Bracketed ts
  | .inside k _ => Closes k ts

theorem Bracketed.literal_append {ts : List (Spanned Token)} (h : Bracketed ts) (pos : Nat)
    (cs : List Char) : Bracketed (literal pos cs ++ ts) := by
  unfold literal
  split
  · exact h
  · exact .text h

theorem Spelled.ne_text {t : Token} {text : List Char} (h : t.Spelled text) (s : String) :
    t ≠ .text s := by
  cases h with
  | @name c cs _ _ =>
    intro ht
    have := isWord_ofName (String.ofList (c :: cs))
    rw [ht] at this
    simp [isWord] at this
  | _ => simp

theorem Scans.bracketedIn {r : Region} {pos : Nat} {cs : List Char} {ts : List (Spanned Token)}
    (h : Scans r pos cs ts) : BracketedIn ts r := by
  induction h with
  | rest _ => exact List.append_nil (literal _ _) ▸ Bracketed.nil.literal_append _ _
  | opening _ _ ih =>
    obtain ⟨inner, closing, more, rfl, hi, hw, hm⟩ := ih
    exact (Bracketed.construct hi hw hm).literal_append _ _
  | blank _ _ ih => exact ih
  | @inner k start pos t text _ _ ht _ hk _ ih =>
    obtain ⟨inner, closing, more, rfl, hi, hw, hm⟩ := ih
    refine ⟨⟨t, pos, pos + Text.size text⟩ :: inner, closing, more, rfl, ?_, hw, hm⟩
    intro t' ht'
    rcases List.mem_cons.1 ht' with rfl | ht'
    · exact ⟨hk, ht.ne_text⟩
    · exact hi t' ht'
  | @closing k start pos _ ts _ ih =>
    exact ⟨[], ⟨pos, pos + Construct.markSize⟩, ts, rfl, by simp, rfl, ih⟩

/-- **The tokens of a template are whole texts and constructs.** -/
theorem Scans.bracketed {pos : Nat} {cs : List Char} {ts : List (Spanned Token)}
    (h : Scans .outside pos cs ts) : Bracketed ts :=
  h.bracketedIn

/-! ### The first token -/

/-- Whole texts and constructs begin with literal text or open a construct. -/
theorem Bracketed.cons_cases {t : Spanned Token} {ts : List (Spanned Token)}
    (h : Bracketed (t :: ts)) :
    (∃ s, t.node = .text s) ∧ Bracketed ts ∨
      ∃ k : Construct, t.node = k.openToken ∧ Closes k ts := by
  generalize hu : t :: ts = us at h
  cases h with
  | nil => cases hu
  | text h =>
    cases hu
    exact .inl ⟨⟨_, rfl⟩, h⟩
  | construct hi hw h =>
    cases hu
    exact .inr ⟨_, rfl, _, _, _, rfl, hi, hw, h⟩

theorem Bracketed.of_literal_append {pos : Nat} {cs : List Char} {ts : List (Spanned Token)}
    (h : Bracketed (literal pos cs ++ ts)) : Bracketed ts := by
  cases cs with
  | nil => exact h
  | cons c cs =>
    obtain ⟨-, h⟩ | ⟨k, hk, -⟩ := Bracketed.cons_cases h
    · exact h
    · cases k <;> cases hk

theorem eq_of_openToken_eq {k k' : Construct} (h : k.openToken = k'.openToken) : k = k' := by
  revert h
  cases k <;> cases k' <;> decide

theorem Bracketed.closes {k : Construct} {opening : Span} {ts : List (Spanned Token)}
    (h : Bracketed (⟨k.openToken, opening⟩ :: ts)) : Closes k ts := by
  obtain ⟨⟨s, hs⟩, -⟩ | ⟨k', hk, h⟩ := h.cons_cases
  · cases k <;> cases hs
  · obtain rfl := eq_of_openToken_eq hk
    exact h

/-- What is left of a construct after one of its tokens. -/
theorem Closes.of_cons {k : Construct} {t : Spanned Token} {ts : List (Spanned Token)}
    (h : Closes k (t :: ts)) (hk : t.node ≠ k.closeToken) : Closes k ts := by
  obtain ⟨_ | ⟨u, inner⟩, closing, more, heq, hi, hw, hm⟩ := h
  · cases heq
    exact absurd rfl hk
  · cases heq
    exact ⟨inner, closing, more, rfl, fun t ht => hi t (List.mem_cons_of_mem _ ht), hw, hm⟩

/-- After its close marker a construct is over. -/
theorem Closes.of_closing {k : Construct} {closing : Span} {ts : List (Spanned Token)}
    (h : Closes k (⟨k.closeToken, closing⟩ :: ts)) : Bracketed ts := by
  obtain ⟨_ | ⟨u, inner⟩, closing, more, heq, hi, hw, hm⟩ := h
  · cases heq
    exact hm
  · cases heq
    exact absurd rfl (hi _ List.mem_cons_self).1

theorem Closes.exists_cons {k : Construct} {ts : List (Spanned Token)} (h : Closes k ts) :
    ∃ t us, ts = t :: us := by
  obtain ⟨_ | ⟨u, inner⟩, closing, more, rfl, -⟩ := h
  · exact ⟨_, _, rfl⟩
  · exact ⟨_, _, rfl⟩

end Token

namespace Item

@[simp] theorem ofTokens_nil (limit : Nat) : ofTokens limit [] = .ok [] := by
  rw [ofTokens]

theorem ofTokens_text (limit : Nat) (s : String) (span : Span) (ts : List (Spanned Token)) :
    ofTokens limit (⟨.text s, span⟩ :: ts) = (⟨.text s, span⟩ :: ·) <$> ofTokens limit ts := by
  rw [ofTokens]
  simp only [bind_pure_comp]

/-- The tokens up to the close marker are those before it. -/
theorem untilClose_append {k : Construct} {inner : List (Spanned Token)}
    (hi : ∀ t ∈ inner, t.node ≠ k.closeToken) (closing : Span) (stop : Nat)
    (ts : List (Spanned Token)) :
    untilClose k.closeToken stop (inner ++ ⟨k.closeToken, closing⟩ :: ts) =
      (inner, closing.stop, ts) := by
  induction inner generalizing stop with
  | nil => simp [untilClose]
  | cons t inner ih =>
    rw [List.cons_append, untilClose, if_neg (hi t List.mem_cons_self),
      ih fun t ht => hi t (List.mem_cons_of_mem _ ht)]

theorem ofTokens_construct {k : Construct} {inner : List (Spanned Token)}
    (hi : ∀ t ∈ inner, Token.Inside k t.node) (limit : Nat) (opening closing : Span)
    (ts : List (Spanned Token)) :
    ofTokens limit (⟨k.openToken, opening⟩ :: (inner ++ ⟨k.closeToken, closing⟩ :: ts)) =
      construct? limit ⟨opening.start, closing.stop⟩ inner k >>= fun item =>
        (⟨item, opening.start, closing.stop⟩ :: ·) <$> ofTokens limit ts := by
  have hu := untilClose_append (fun t ht => (hi t ht).1) closing opening.stop ts
  rw [ofTokens]
  cases k <;> simp only [Construct.openToken, opened?, hu, bind_pure_comp]

end Item

end Stencil
