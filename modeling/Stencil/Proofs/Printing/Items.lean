import Stencil.Proofs.Printing.Condition
import Stencil.Proofs.Printing.Text

/-!
# Reading printed items

Items that are laid out as in a printed document, no literal text beside literal text nor before
a construct if it ends in `[`, are scanned into their tokens, and their tokens collapse into the
same items again.
-/

namespace Stencil

/-! ### The tokens of conditions -/

namespace Condition

theorem inner_wrap {c : Condition} {ts : List Token} (h : ∀ t ∈ ts, t.Inner) :
    ∀ t ∈ wrap c ts, t.Inner := by
  have hparen : ∀ t ∈ Token.parenOpen :: (ts ++ [.parenClose]), t.Inner := by
    intro t ht
    simp only [List.mem_cons, List.mem_append, List.not_mem_nil, or_false] at ht
    rcases ht with rfl | ht | rfl
    · trivial
    · exact h t ht
    · trivial
  cases c with
  | param _ => exact h
  | _ => exact hparen

theorem inner_operandTokens {op : Token} (hop : op.Inner) {cs : List Condition}
    (h : ∀ c ∈ cs, ∀ t ∈ c.tokens, t.Inner) : ∀ t ∈ operandTokens op cs, t.Inner := by
  induction cs with
  | nil => simp [operandTokens]
  | cons c cs ih =>
    intro t ht
    rw [operandTokens, List.mem_cons, List.mem_append] at ht
    rcases ht with rfl | ht | ht
    · exact hop
    · exact inner_wrap (h c List.mem_cons_self) t ht
    · exact ih (fun c hc => h c (List.mem_cons_of_mem _ hc)) t ht

theorem inner_tokens {c : Condition} (h : c.Formed) : ∀ t ∈ c.tokens, t.Inner := by
  induction h with
  | @param name h =>
    intro t ht
    rw [tokens, List.mem_singleton] at ht
    rw [ht]
    exact h
  | not _ ih =>
    intro t ht
    rw [tokens, List.mem_cons] at ht
    rcases ht with rfl | ht
    · trivial
    · exact inner_wrap ih t ht
  | and _ _ ih =>
    intro t ht
    have hop : Token.andOp.Inner := trivial
    exact inner_operandTokens hop ih t (List.mem_of_mem_tail ht)
  | or _ _ ih =>
    intro t ht
    have hop : Token.orOp.Inner := trivial
    exact inner_operandTokens hop ih t (List.mem_of_mem_tail ht)

end Condition

/-! ### Items -/

namespace Item

/-- Whether an item is literal text. -/
def isText : Item → Bool
  | .text _ => true
  | _ => false

/-- A condition without its place that can be printed and read back. -/
def Reread (limit : Nat) (c : Spanned Condition) : Prop :=
  c = .bare c.node ∧ c.node.Formed ∧ c.node.parenDepth ≤ limit

/-- An item that can be printed and read back. -/
def Formed (limit : Nat) : Item → Prop
  | .text s => IsLiteralText s
  | .interpolation name => Condition.IsName name
  | .directive (.ifD c) | .directive (.elifD c) => Reread limit c
  | .directive _ => True

/-- Items that can be printed one after the other and read back. -/
inductive Laid (limit : Nat) : List Item → Prop where
  /-- No items. -/
  | nil : Laid limit []
  /-- Literal text, with no more of it next and no `[` before a marker. -/
  | text {s : String} {items : List Item} (h : IsLiteralText s)
      (hn : ∀ i ∈ items.head?, s.toList.getLast? ≠ some '[' ∧ i.isText = false)
      (hl : Laid limit items) : Laid limit (.text s :: items)
  /-- An interpolation or a directive. -/
  | construct {i : Item} {items : List Item} (hi : i.isText = false) (h : i.Formed limit)
      (hl : Laid limit items) : Laid limit (i :: items)

/-- A construct is printed between its markers, and what is between them is read as it. -/
theorem exists_enclose {limit : Nat} {i : Item} (hi : i.isText = false) (h : i.Formed limit) :
    ∃ k inner, i.tokens = Construct.enclose k inner ∧ (∀ t ∈ inner, t.Inner) ∧
      construct? limit ⟨0, 0⟩ (inner.map Spanned.bare) k = .ok i := by
  have hcond : ∀ (k : Keyword) (c : Condition), c.Formed →
      ∀ t ∈ Token.keyword k :: c.tokens, t.Inner := by
    intro k c hc t ht
    rcases List.mem_cons.1 ht with rfl | ht
    · trivial
    · exact Condition.inner_tokens hc t ht
  match i, hi, h with
  | .interpolation name, _, h =>
    have ht : (Token.var name).Inner := h
    exact ⟨.interpolation, [.var name], rfl, by simpa using ht, rfl⟩
  | .directive (.ifD c), _, ⟨hb, hc, hd⟩ =>
    refine ⟨.directive, _, rfl, hcond _ c.node hc, ?_⟩
    change Item.directive <$>
      (Directive.ifD <$> Condition.parse limit .ifK ⟨0, 0⟩ 0 (c.node.tokens.map .bare)) = _
    rw [Condition.parse_tokens hc hd, ← hb]
    rfl
  | .directive (.elifD c), _, ⟨hb, hc, hd⟩ =>
    refine ⟨.directive, _, rfl, hcond _ c.node hc, ?_⟩
    change Item.directive <$>
      (Directive.elifD <$> Condition.parse limit .elifK ⟨0, 0⟩ 0 (c.node.tokens.map .bare)) = _
    rw [Condition.parse_tokens hc hd, ← hb]
    rfl
  | .directive .elseD, _, _ =>
    exact ⟨.directive, [.keyword .elseK], rfl, by simp [Token.Inner], rfl⟩
  | .directive .endifD, _, _ =>
    exact ⟨.directive, [.keyword .endifK], rfl, by simp [Token.Inner], rfl⟩
  | .directive (.includeD path), _, _ =>
    exact ⟨.directive, [.keyword .includeK, .string path], rfl, by simp [Token.Inner], rfl⟩

/-- The tokens of a construct are no literal text in front. -/
theorem ne_text_of_head?_tokens {limit : Nat} {i : Item} (hi : i.isText = false)
    (h : i.Formed limit) {ts : List Token} :
    ∀ t ∈ (i.tokens ++ ts).head?, ∀ s, t ≠ .text s := by
  obtain ⟨k, inner, he, -, -⟩ := exists_enclose hi h
  rw [he]
  cases k <;> simp [Construct.enclose, Construct.openToken]

namespace Laid

variable {limit : Nat} {items : List Item}

/-- What is next after literal text, seen in its tokens. -/
theorem head?_tokens {s : String} (hl : Laid limit items)
    (hn : ∀ i ∈ items.head?, s.toList.getLast? ≠ some '[' ∧ i.isText = false) :
    ∀ t ∈ (items.flatMap tokens).head?, s.toList.getLast? ≠ some '[' ∧ ∀ v, t ≠ .text v := by
  cases hl with
  | nil => simp
  | text _ _ _ => exact absurd (hn _ rfl).2 (by simp [isText])
  | construct hi h _ =>
    intro t ht
    exact ⟨(hn _ rfl).1, ne_text_of_head?_tokens hi h t ht⟩

/-- **Printed items are scanned into their tokens.** -/
theorem scansOutside (h : Laid limit items) (style : Style) (n : Nat) :
    Token.ScansOutside (Token.write style n (items.flatMap tokens)) (items.flatMap tokens) := by
  induction h generalizing n with
  | nil => exact Token.scansOutside_nil
  | text h hn hl ih => exact .text h (hl.head?_tokens hn) (ih (n + 1))
  | construct hi h _ ih =>
    obtain ⟨k, inner, he, hin, -⟩ := exists_enclose hi h
    rw [List.flatMap_cons, he]
    exact .construct hin ih n

/-- **The tokens of items collapse into the items.** -/
theorem ofTokens (h : Laid limit items) :
    Item.ofTokens limit ((items.flatMap tokens).map Spanned.bare) =
      .ok (items.map Spanned.bare) := by
  induction h with
  | nil => exact ofTokens_nil limit
  | @text s items _ _ _ ih =>
    refine (ofTokens_text limit s ⟨0, 0⟩ ((items.flatMap tokens).map Spanned.bare)).trans ?_
    rw [ih]
    rfl
  | construct hi h _ ih =>
    obtain ⟨k, inner, he, hin, hc⟩ := exists_enclose hi h
    have hinside : ∀ t ∈ inner.map Spanned.bare, Token.Inside k t.node := by
      intro t ht
      obtain ⟨u, hu, rfl⟩ := List.mem_map.1 ht
      exact (hin u hu).inside k
    simp only [List.flatMap_cons, he, Construct.enclose, List.map_append, List.map_cons,
      List.cons_append, List.append_assoc, List.nil_append]
    refine (ofTokens_construct hinside limit ⟨0, 0⟩ ⟨0, 0⟩ _).trans ?_
    rw [hc, ih]
    rfl

end Laid

end Item

end Stencil
