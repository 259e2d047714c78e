import Mathlib
import Stencil.Proofs.Document.Moving
import Stencil.Proofs.Token.Concatenation

/-!
# Parsing two templates

A template that parses leaves nothing open, so what is put after it is read as if it stood
alone: its document follows that of the first template, and its first defect is the first
defect of the whole (`parse_append`). Only literal texts that meet become one, and the two
templates must not make a marker where they meet.
-/

namespace Stencil

open Literal

/-! ### Items -/

namespace Item

theorem ofTokens_ne_nil {limit : Nat} {ts : List (Spanned Token)} {items : List (Spanned Item)}
    (h : Token.Bracketed ts) (hts : ts ≠ []) (hi : ofTokens limit ts = .ok items) : items ≠ [] := by
  cases h with
  | nil => exact absurd rfl hts
  | text _ =>
    rw [ofTokens_text] at hi
    obtain ⟨more, -, rfl⟩ := map_eq_ok_iff.1 hi
    simp
  | construct hin _ _ =>
    rw [ofTokens_construct hin] at hi
    obtain ⟨item, -, hi⟩ := bind_eq_ok_iff.1 hi
    obtain ⟨more, -, rfl⟩ := map_eq_ok_iff.1 hi
    simp

/-- A construct makes no literal text. -/
theorem text?_construct? {limit : Nat} {full span : Span} {inner : List (Spanned Token)}
    {k : Construct} {item : Item} (h : construct? limit full inner k = .ok item) :
    text? (⟨item, span⟩ : Spanned Item) = none := by
  cases k with
  | directive =>
    simp only [construct?] at h
    obtain ⟨d, -, rfl⟩ := map_eq_ok_iff.1 h
    rfl
  | interpolation =>
    simp only [construct?] at h
    split at h
    · rw [Except.ok.injEq] at h
      subst h
      rfl
    · cases h

/-- Literal text before the tokens of another template. -/
theorem ofTokens_weld_text (limit : Nat) (s : String) (span : Span) {us : List (Spanned Token)}
    (hus : Token.Bracketed us) :
    ofTokens limit (weld [⟨.text s, span⟩] us) = weld [⟨.text s, span⟩] <$> ofTokens limit us := by
  cases hus with
  | nil =>
    rw [weld_nil_right, ofTokens_text, ofTokens_nil]
    rfl
  | @text s' span' us hus =>
    rw [weld_singleton rfl rfl, ofTokens_text, ← comp_map]
    exact ofTokens_text ..
  | @construct k opening closing inner us hin hw hus =>
    rw [weld_of_head? (by simp [Token.text?_openToken]), List.singleton_append, ofTokens_text,
      ofTokens_construct hin]
    cases hc : construct? limit ⟨opening.start, closing.stop⟩ inner k with
    | error e => rfl
    | ok item =>
      have hx : ∀ more : List (Spanned Item),
          weld [⟨.text s, span⟩] (⟨item, opening.start, closing.stop⟩ :: more) =
          ⟨.text s, span⟩ :: ⟨item, opening.start, closing.stop⟩ :: more := by
        intro more
        exact weld_of_head? (by simp [text?_construct? hc]) _
      rw [ok_bind, ← comp_map, ← comp_map]
      congr 1
      funext more
      exact (hx more).symm

/-- **The items of two lists of tokens are those of the first welded to those of the second.** -/
theorem ofTokens_weld {limit : Nat} {ts us : List (Spanned Token)} {items : List (Spanned Item)}
    (hts : Token.Bracketed ts) (hus : Token.Bracketed us) (hi : ofTokens limit ts = .ok items) :
    ofTokens limit (weld ts us) = weld items <$> ofTokens limit us := by
  induction hts generalizing items with
  | nil =>
    rw [ofTokens_nil, Except.ok.injEq] at hi
    subst hi
    exact (id_map _).symm
  | @text s span ts hts ih =>
    rw [ofTokens_text] at hi
    obtain ⟨more, hm, rfl⟩ := map_eq_ok_iff.1 hi
    by_cases hnil : ts = []
    · subst hnil
      rw [ofTokens_nil, Except.ok.injEq] at hm
      subst hm
      exact ofTokens_weld_text limit s span hus
    · rw [weld_cons_of_ne_nil hnil, ofTokens_text, ih hm, ← comp_map]
      congr 1
      funext items
      exact (weld_cons_of_ne_nil (ofTokens_ne_nil hts hnil hm) _ _).symm
  | @construct k opening closing inner ts hin hw hts ih =>
    rw [ofTokens_construct hin] at hi
    obtain ⟨item, hc, hi⟩ := bind_eq_ok_iff.1 hi
    obtain ⟨more, hm, rfl⟩ := map_eq_ok_iff.1 hi
    rw [weld_cons (Token.text?_openToken k _), weld_append (by simp),
      weld_cons (Token.text?_closeToken k _), ofTokens_construct hin, hc, ok_bind, ih hm,
      ← comp_map]
    congr 1
    funext items
    exact (weld_cons (text?_construct? hc) _ _).symm

end Item

/-! ### Blocks -/

namespace Document

/-- The same block before more items: what it does not read, or its nodes, are welded to them. -/
def Stretch.before (limit depth : Nat) (js : List (Spanned Item)) (b : Stretch) :
    Except ParseError Stretch :=
  match b.terminator with
  | some _ => .ok { b with rest := weld b.rest js }
  | none => (fun c => { c with nodes := weld b.nodes c.nodes }) <$> readBlock limit depth js

theorem nodeOf?_text {x : Spanned Item} {s : String} {span : Span} (h : text? x = some (s, span)) :
    x = ⟨.text s, span⟩ := by
  obtain ⟨i, sp⟩ := x
  cases i with
  | text s' =>
    simp only [text?, Option.some.injEq, Prod.mk.injEq] at h
    rw [h.1, h.2]
  | _ => simp [text?] at h

theorem text?_nodeOf? {x : Spanned Item} {n : Node} (h : nodeOf? x = some n) :
    text? n = text? x := by
  unfold nodeOf? at h
  split at h
  case h_4 => cases h
  all_goals
    rw [Option.some.injEq] at h
    subst h
    rfl

theorem text?_terminatorOf? {x : Spanned Item} {t : Spanned Terminator}
    (h : terminatorOf? x = some t) : text? x = none := by
  unfold terminatorOf? at h
  split at h
  case h_4 => cases h
  all_goals rfl

/-- A block ends at once or begins with a node, which is literal text if the first item is. -/
theorem readBlock_eq_ok_cases {limit depth : Nat} {x : Spanned Item} {rest : List (Spanned Item)}
    {b : Stretch} (h : readBlock limit depth (x :: rest) = .ok b) :
    (∃ t, b = ⟨[], some t, rest⟩) ∨ ∃ n b', text? n = text? x ∧ b = Stretch.cons n b' := by
  rcases item_cases x with ⟨n, hn⟩ | ⟨t, ht⟩ | ⟨c, span, rfl⟩
  · rw [readBlock_node _ _ _ hn] at h
    obtain ⟨b', -, rfl⟩ := map_eq_ok_iff.1 h
    exact .inr ⟨n, b', text?_nodeOf? hn, rfl⟩
  · rw [readBlock_terminator _ _ _ ht, Except.ok.injEq] at h
    exact .inl ⟨t, h.symm⟩
  · rw [readBlock_if] at h
    split_ifs at h
    obtain ⟨t, -, h⟩ := bind_eq_ok_iff.1 h
    obtain ⟨b', -, rfl⟩ := map_eq_ok_iff.1 h
    exact .inr ⟨_, b', rfl, rfl⟩

/-- A block that runs to the end of items has nodes if there are items. -/
theorem nodes_ne_nil {limit depth : Nat} {items : List (Spanned Item)} {b : Stretch}
    (hi : items ≠ []) (h : readBlock limit depth items = .ok b) (ht : b.terminator = none) :
    b.nodes ≠ [] := by
  cases items with
  | nil => exact absurd rfl hi
  | cons x rest =>
    obtain ⟨t, rfl⟩ | ⟨n, b', -, rfl⟩ := readBlock_eq_ok_cases h
    · cases ht
    · exact List.cons_ne_nil _ _

/-- Items begin with a literal node only if they begin with literal text. -/
theorem head?_readBlock {limit depth : Nat} {items : List (Spanned Item)} {b : Stretch}
    (hx : ∀ x ∈ items.head?, text? x = none) (h : readBlock limit depth items = .ok b) :
    ∀ n ∈ b.nodes.head?, text? n = none := by
  cases items with
  | nil =>
    rw [readBlock_nil, Except.ok.injEq] at h
    simp [← h]
  | cons x rest =>
    obtain ⟨t, rfl⟩ | ⟨n, b', hn, rfl⟩ := readBlock_eq_ok_cases h
    · simp
    · simp [Stretch.cons, hn, hx x rfl]

/-- Literal text before the items of another template. -/
theorem readBlock_weld_text (limit depth : Nat) (s : String) (span : Span)
    (js : List (Spanned Item)) :
    readBlock limit depth (weld [⟨.text s, span⟩] js) =
      (fun c => { c with nodes := weld [.literal s span] c.nodes }) <$>
        readBlock limit depth js := by
  cases js with
  | nil =>
    rw [weld_nil_right, readBlock_node limit depth [] rfl, readBlock_nil]
    rfl
  | cons j js =>
    cases hj : text? j with
    | some p =>
      obtain ⟨s', span'⟩ := p
      obtain rfl := nodeOf?_text hj
      rw [weld_singleton rfl rfl]
      refine (readBlock_node limit depth js rfl).trans ?_
      rw [readBlock_node limit depth js rfl, ← comp_map]
      rfl
    | none =>
      have hh : ∀ y ∈ (j :: js).head?, text? y = none := by simpa using hj
      rw [weld_of_head? hh, List.singleton_append, readBlock_node limit depth (j :: js) rfl]
      cases hb : readBlock limit depth (j :: js) with
      | error e => rfl
      | ok c =>
        rw [map_ok, map_ok, weld_of_head? (head?_readBlock hh hb)]
        rfl

/-- One more node at the front of a block before more items. -/
theorem Stretch.before_cons {limit depth : Nat} {js : List (Spanned Item)} {n : Node} {b : Stretch}
    (h : b.terminator = none → ∀ ns, weld (n :: b.nodes) ns = n :: weld b.nodes ns) :
    (b.cons n).before limit depth js = Stretch.cons n <$> b.before limit depth js := by
  unfold before cons
  cases ht : b.terminator with
  | some t => rfl
  | none =>
    simp only [h ht, ← comp_map]
    rfl

/-- What follows the body of a branch, before more items. -/
theorem readAfter_weld {limit depth : Nat} {js : List (Spanned Item)} {opening : Span}
    {c : Spanned Condition} {b : Stretch} {t : Clauses}
    (h : readAfter limit depth opening c b = .ok t)
    (helif : ∀ next span, b.terminator = some ⟨.elifT next, span⟩ →
      ∀ t, readClauses limit depth opening next b.rest = .ok t →
        readClauses limit depth opening next (weld b.rest js) =
          .ok { t with rest := weld t.rest js })
    (helse : ∀ span, b.terminator = some ⟨.elseT, span⟩ →
      ∀ last, readBlock limit depth b.rest = .ok last →
        readBlock limit depth (weld b.rest js) = last.before limit depth js) :
    (b.before limit depth js >>= readAfter limit depth opening c) =
      .ok { t with rest := weld t.rest js } := by
  obtain ⟨nodes, _ | ⟨next | _ | _, span⟩, rest⟩ := b
  · cases h
  · obtain ⟨tail, htail, rfl⟩ := map_eq_ok_iff.1 h
    change Clauses.cons _ <$> readClauses limit depth opening next (weld rest js) = _
    rw [helif next span rfl tail htail]
    rfl
  · obtain ⟨last, hl, hlast⟩ := bind_eq_ok_iff.1 h
    change (readBlock limit depth (weld rest js) >>= _) = _
    rw [helse span rfl last hl]
    obtain ⟨nodes', _ | ⟨_ | _ | _, span'⟩, rest'⟩ := last
    case some.endifT =>
      cases hlast
      rfl
    all_goals cases hlast
  · cases h
    rfl

/-- **A block before more items is the same block before them.** -/
theorem reading_weld (limit : Nat) (js : List (Spanned Item)) :
    (∀ depth items, ∀ b, readBlock limit depth items = .ok b →
      readBlock limit depth (weld items js) = b.before limit depth js) ∧
    ∀ depth opening c items, ∀ t, readClauses limit depth opening c items = .ok t →
      readClauses limit depth opening c (weld items js) =
        .ok { t with rest := weld t.rest js } := by
  apply reading_induction limit
  case nil =>
    intro depth b hb
    rw [readBlock_nil, Except.ok.injEq] at hb
    subst hb
    exact (id_map _).symm
  case node =>
    intro depth x n rest hn ih b hb
    rw [readBlock_node _ _ _ hn] at hb
    obtain ⟨b, hb', rfl⟩ := map_eq_ok_iff.1 hb
    by_cases hw : text? x = none ∨ rest ≠ []
    · have hweld : weld (x :: rest) js = x :: weld rest js :=
        hw.elim (weld_cons · rest js) (weld_cons_of_ne_nil · x js)
      rw [hweld, readBlock_node _ _ _ hn, ih b hb', Stretch.before_cons fun ht ns => ?_]
      rcases hw with hx | hrest
      · exact weld_cons ((text?_nodeOf? hn).trans hx) _ _
      · exact weld_cons_of_ne_nil (nodes_ne_nil hrest hb' ht) _ _
    · -- literal text at the very end is what the items after it may be welded to
      simp only [not_or, not_not] at hw
      obtain ⟨hx, rfl⟩ := hw
      obtain ⟨⟨s, span⟩, hx⟩ := Option.ne_none_iff_exists'.1 hx
      obtain rfl := nodeOf?_text hx
      rw [readBlock_nil, Except.ok.injEq] at hb'
      subst hb'
      cases hn
      exact readBlock_weld_text limit depth s span js
  case terminator =>
    intro depth x t rest ht b hb
    rw [readBlock_terminator _ _ _ ht, Except.ok.injEq] at hb
    subst hb
    rw [weld_cons (text?_terminatorOf? ht), readBlock_terminator _ _ _ ht]
    rfl
  case opening =>
    intro depth span c rest ihc ihr b hb
    rw [readBlock_if] at hb
    split_ifs at hb with hd
    obtain ⟨t, ht, hb⟩ := bind_eq_ok_iff.1 hb
    obtain ⟨b, hb', rfl⟩ := map_eq_ok_iff.1 hb
    rw [weld_cons rfl, readBlock_if, if_neg hd, ihc t ht, ok_bind, ihr t ht b hb']
    exact (Stretch.before_cons fun _ ns => weld_cons rfl _ _).symm
  case tooDeep =>
    intro depth span c rest hd b hb
    rw [readBlock_if, if_pos hd] at hb
    cases hb
  case clauses =>
    intro depth opening c items ih ihelif ihelse t ht
    rw [readClauses_eq] at ht ⊢
    obtain ⟨b, hb, ht⟩ := bind_eq_ok_iff.1 ht
    rw [ih b hb]
    exact readAfter_weld ht (fun next span h => ihelif b next span hb h)
      fun span h => ihelse b span hb h

theorem ofItems_weld {limit : Nat} {items : List (Spanned Item)} {d : Document}
    (h : ofItems limit items = .ok d) (js : List (Spanned Item)) :
    ofItems limit (weld items js) = (fun e => ⟨weld d.nodes e.nodes⟩) <$> ofItems limit js := by
  rw [ofItems_eq] at h ⊢
  obtain ⟨b, hb, h⟩ := bind_eq_ok_iff.1 h
  rw [(reading_weld limit js).1 0 items b hb, ofItems_eq, Stretch.before]
  cases ht : b.terminator with
  | some t =>
    rw [ht] at h
    cases h
  | none =>
    rw [ht, Except.ok.injEq] at h
    subst h
    cases readBlock limit 0 js with
    | error e => rfl
    | ok c =>
      simp only [map_ok, ok_bind]
      cases c.terminator <;> rfl

/-! ### Templates -/

theorem size_toList (s : String) : Text.size s.toList = s.utf8ByteSize := by
  have h : ∀ cs : List Char, (String.ofList cs).utf8ByteSize = Text.size cs := by
    intro cs
    induction cs with
    | nil => rfl
    | cons c cs ih =>
      rw [String.ofList_cons, String.utf8ByteSize_append, String.utf8ByteSize_singleton, ih]
      rfl
  rw [← h, String.ofList_toList]

/-- **A template after another is parsed as if it stood alone**, and its document follows that of
the other. Its offsets, and those of its first defect, are further on by the size of the other. -/
theorem parse_append {limit : Nat} {s₁ s₂ : String} {d₁ : Document} (h₁ : parse limit s₁ = .ok d₁)
    (hs : ¬ (s₁.toList.getLast? = some '[' ∧
      (s₂.toList.head? = some '[' ∨ s₂.toList.head? = some '%'))) :
    parse limit (s₁ ++ s₂) =
      match parse limit s₂ with
      | .ok d₂ => .ok ⟨weld d₁.nodes (d₂.shift s₁.utf8ByteSize).nodes⟩
      | .error e => .error (e.shift s₁.utf8ByteSize) := by
  rw [parse_eq] at h₁
  obtain ⟨ts, hts, h₁⟩ := bind_eq_ok_iff.1 h₁
  obtain ⟨items, hi, h₁⟩ := bind_eq_ok_iff.1 h₁
  rw [Token.scanFrom_eq_ok_iff] at hts
  have hshift := Token.scanFrom_shift s₁.utf8ByteSize .outside 0 s₂.toList
  simp only [Token.Region.shift] at hshift
  rw [parse_eq, parse_eq, String.toList_append, Token.scanFrom_append hts hs, size_toList, hshift]
  cases hus : Token.scanFrom .outside 0 s₂.toList with
  | error e => rfl
  | ok us =>
    have hb := (Token.scanFrom_eq_ok_iff.1 hus).bracketed
    have hmove := ofTokens_bind_ofItems_move (keepsMarks_add s₁.utf8ByteSize) limit hb
    have hb' : Token.Bracketed (us.map (·.move (· + s₁.utf8ByteSize))) :=
      (Token.scanFrom_eq_ok_iff.1 (by rw [hshift, hus]; rfl)).bracketed
    have hweld : (Item.ofTokens limit (weld ts (us.map (·.move (· + s₁.utf8ByteSize)))) >>=
        ofItems limit) =
        (fun d => ⟨weld d₁.nodes d.nodes⟩) <$>
          (Item.ofTokens limit (us.map (·.move (· + s₁.utf8ByteSize))) >>= ofItems limit) := by
      rw [Item.ofTokens_weld hts.bracketed hb' hi, map_bind, bind_map_left]
      simp only [ofItems_weld h₁]
    rw [hmove] at hweld
    refine hweld.trans ?_
    rw [ok_bind]
    cases Item.ofTokens limit us >>= ofItems limit with
    | error e => rfl
    | ok d => rfl

/-- Two texts that meet become one, and a defect of the second template is found behind the
first. -/
theorem parse_append_where_texts_meet :
    parse 1 ("a[[ $x ]]b" ++ "c[% if $y %]d[% endif %]") =
        .ok ⟨[.literal "a" ⟨0, 1⟩, .interpolation "x" ⟨1, 9⟩, .literal "bc" ⟨9, 11⟩,
          .conditional [.mk (.param "y") ⟨17, 19⟩ [.literal "d" ⟨22, 23⟩]] none ⟨11, 34⟩]⟩ ∧
      parse 1 ("a[[ $x ]]b" ++ "c[% endif %]") = .error ⟨.unopened .endifK, ⟨11, 22⟩⟩ := by
  have h₁ : parse 1 "a[[ $x ]]b" =
      .ok ⟨[.literal "a" ⟨0, 1⟩, .interpolation "x" ⟨1, 9⟩, .literal "b" ⟨9, 10⟩]⟩ := by cbv
  have h₂ : parse 1 "c[% if $y %]d[% endif %]" =
      .ok ⟨[.literal "c" ⟨0, 1⟩,
        .conditional [.mk (.param "y") ⟨7, 9⟩ [.literal "d" ⟨12, 13⟩]] none ⟨1, 24⟩]⟩ := by cbv
  have h₃ : parse 1 "c[% endif %]" = .error ⟨.unopened .endifK, ⟨1, 12⟩⟩ := by cbv
  constructor
  · rw [parse_append h₁ (by decide), h₂]
    rfl
  · rw [parse_append h₁ (by decide), h₃]
    rfl

end Document

end Stencil
