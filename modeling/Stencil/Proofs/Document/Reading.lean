import Stencil.Document.Parse
import Stencil.Proofs.Except

/-!
# The steps of reading blocks

`Document.block` and `Document.conditional` carry the bounds by which their recursion ends.
`readBlock` and `readClauses` are the same without the bounds, with one equation for each kind
of item; `reading_induction` is the induction on what is read that goes with them.
-/

namespace Stencil

namespace Document

/-- The nodes of a block, what ends it, and the items after that. -/
structure Stretch where
  /-- The nodes. -/
  nodes : List Node
  /-- What ends the block; nothing if the items ran out. -/
  terminator : Option (Spanned Terminator)
  /-- The items after the terminator. -/
  rest : List (Spanned Item)

/-- The branches of a conditional, its last part, where its `endif` ends, and the items after. -/
structure Clauses where
  /-- The branches. -/
  branches : List Branch
  /-- The part after `else`. -/
  otherwise : Option (List Node)
  /-- Where the `endif` ends. -/
  stop : Nat
  /-- The items after the `endif`. -/
  rest : List (Spanned Item)

/-- One more node at the front. -/
def Stretch.cons (n : Node) (b : Stretch) : Stretch := { b with nodes := n :: b.nodes }

/-- One more branch at the front. -/
def Clauses.cons (b : Branch) (t : Clauses) : Clauses := { t with branches := b :: t.branches }

/-- The node of a conditional whose `if` begins at `start`. -/
def Clauses.node (t : Clauses) (start : Nat) : Node :=
  .conditional t.branches t.otherwise ⟨start, t.stop⟩

/-- A block without the bound on what is left. -/
def readBlock (limit depth : Nat) (items : List (Spanned Item)) : Except ParseError Stretch :=
  (fun b => ⟨b.nodes, b.terminator, b.rest⟩) <$> block limit depth items

/-- The clauses of a conditional without the bound on what is left. -/
def readClauses (limit depth : Nat) (opening : Span) (condition : Spanned Condition)
    (items : List (Spanned Item)) : Except ParseError Clauses :=
  (fun t => ⟨t.branches, t.otherwise, t.stop, t.rest⟩) <$>
    conditional limit depth opening condition items

/-- The node that an item makes by itself. -/
def nodeOf? : Spanned Item → Option Node
  | ⟨.text s, span⟩ => some (.literal s span)
  | ⟨.interpolation name, span⟩ => some (.interpolation name span)
  | ⟨.directive (.includeD path), span⟩ => some (.inclusion path span)
  | _ => none

/-- The terminator that an item is. -/
def terminatorOf? : Spanned Item → Option (Spanned Terminator)
  | ⟨.directive (.elifD c), span⟩ => some ⟨.elifT c, span⟩
  | ⟨.directive .elseD, span⟩ => some ⟨.elseT, span⟩
  | ⟨.directive .endifD, span⟩ => some ⟨.endifT, span⟩
  | _ => none

/-- An item makes a node, ends a block, or opens one. -/
theorem item_cases (x : Spanned Item) :
    (∃ n, nodeOf? x = some n) ∨ (∃ t, terminatorOf? x = some t) ∨
    ∃ c span, x = ⟨.directive (.ifD c), span⟩ := by
  obtain ⟨i, span⟩ := x
  cases i with
  | text s => exact .inl ⟨_, rfl⟩
  | interpolation name => exact .inl ⟨_, rfl⟩
  | directive d =>
    cases d with
    | includeD path => exact .inl ⟨_, rfl⟩
    | ifD c => exact .inr (.inr ⟨c, span, rfl⟩)
    | elifD c => exact .inr (.inl ⟨_, rfl⟩)
    | elseD => exact .inr (.inl ⟨_, rfl⟩)
    | endifD => exact .inr (.inl ⟨_, rfl⟩)

section

variable (limit depth : Nat) (rest : List (Spanned Item))

@[simp] theorem readBlock_nil : readBlock limit depth [] = .ok ⟨[], none, []⟩ := by
  rw [readBlock, block]
  rfl

theorem readBlock_node {x : Spanned Item} {n : Node} (h : nodeOf? x = some n) :
    readBlock limit depth (x :: rest) = Stretch.cons n <$> readBlock limit depth rest := by
  unfold nodeOf? at h
  split at h
  case h_4 => cases h
  all_goals
    cases h
    rw [readBlock, readBlock, block]
    cases block limit depth rest <;> rfl

theorem readBlock_terminator {x : Spanned Item} {t : Spanned Terminator}
    (h : terminatorOf? x = some t) :
    readBlock limit depth (x :: rest) = .ok ⟨[], some t, rest⟩ := by
  unfold terminatorOf? at h
  split at h
  case h_4 => cases h
  all_goals
    cases h
    rw [readBlock, block]
    rfl

theorem readBlock_if (span : Span) (c : Spanned Condition) :
    readBlock limit depth (⟨.directive (.ifD c), span⟩ :: rest) =
      if limit ≤ depth then .error ⟨.tooDeep limit, span⟩
      else readClauses limit (depth + 1) span c rest >>= fun t =>
        Stretch.cons (t.node span.start) <$> readBlock limit depth t.rest := by
  rw [readBlock, readClauses, block]
  split
  · rfl
  · cases conditional limit (depth + 1) span c rest with
    | error e => rfl
    | ok t =>
      simp only [ok_bind, map_ok, readBlock]
      cases block limit depth t.rest <;> rfl

end

/-- What follows the body of a branch, by the terminator of the body. -/
def readAfter (limit depth : Nat) (opening : Span) (condition : Spanned Condition) (b : Stretch) :
    Except ParseError Clauses :=
  let branch : Branch := .mk condition.node condition.span b.nodes
  match b.terminator with
  | none => .error ⟨.missingEndif, opening⟩
  | some ⟨.endifT, span⟩ => .ok ⟨[branch], none, span.stop, b.rest⟩
  | some ⟨.elifT next, _⟩ => Clauses.cons branch <$> readClauses limit depth opening next b.rest
  | some ⟨.elseT, _⟩ => readBlock limit depth b.rest >>= fun last =>
    match last.terminator with
    | none => .error ⟨.missingEndif, opening⟩
    | some ⟨.endifT, span⟩ => .ok ⟨[branch], some last.nodes, span.stop, last.rest⟩
    | some other => .error ⟨.afterElse other.node.keyword, other.span⟩

theorem readClauses_eq (limit depth : Nat) (opening : Span) (condition : Spanned Condition)
    (items : List (Spanned Item)) :
    readClauses limit depth opening condition items =
      readBlock limit depth items >>= readAfter limit depth opening condition := by
  rw [readClauses, readBlock, conditional]
  cases block limit depth items with
  | error e => rfl
  | ok b =>
    simp only [ok_bind, map_ok, readAfter]
    split
    · next h => simp [h]
    · next span h => simp [h]
    · next next span h =>
      simp only [h, readClauses]
      cases conditional limit depth opening next b.rest <;> rfl
    · next span h =>
      simp only [h, readBlock]
      cases block limit depth b.rest with
      | error e => rfl
      | ok last =>
        simp only [ok_bind, map_ok]
        split <;> simp_all

/-- Induction on what is read: a block by its first item, the clauses of a conditional by the
blocks in them. -/
theorem reading_induction (limit : Nat) {P : Nat → List (Spanned Item) → Prop}
    {Q : Nat → Span → Spanned Condition → List (Spanned Item) → Prop}
    (nil : ∀ depth, P depth [])
    (node : ∀ depth x n rest, nodeOf? x = some n → P depth rest → P depth (x :: rest))
    (terminator : ∀ depth x t rest, terminatorOf? x = some t → P depth (x :: rest))
    (opening : ∀ depth span c rest, Q (depth + 1) span c rest →
      (∀ t, readClauses limit (depth + 1) span c rest = .ok t → P depth t.rest) →
      P depth (⟨.directive (.ifD c), span⟩ :: rest))
    (tooDeep : ∀ depth span c rest, limit ≤ depth → P depth (⟨.directive (.ifD c), span⟩ :: rest))
    (clauses : ∀ depth opening c items, P depth items →
      (∀ b next span, readBlock limit depth items = .ok b →
        b.terminator = some ⟨.elifT next, span⟩ →
        Q depth opening next b.rest) →
      (∀ b span, readBlock limit depth items = .ok b → b.terminator = some ⟨.elseT, span⟩ →
        P depth b.rest) →
      Q depth opening c items) :
    (∀ depth items, P depth items) ∧ ∀ depth opening c items, Q depth opening c items := by
  apply block.mutual_induct limit P Q
  case case1 => exact nil
  case case2 => exact fun depth span rest s ih => node depth _ _ rest rfl ih
  case case3 => exact fun depth span rest name ih => node depth _ _ rest rfl ih
  case case4 => exact fun depth span rest path ih => node depth _ _ rest rfl ih
  case case5 => exact fun depth span rest c hd => tooDeep depth span c rest hd
  case case6 =>
    intro depth span rest c _ ihc ihr
    refine opening depth span c rest ihc fun t ht => ?_
    obtain ⟨tail, -, rfl⟩ := map_eq_ok_iff.1 ht
    exact ihr tail
  case case7 => exact fun depth span rest c => terminator depth _ _ rest rfl
  case case8 => exact fun depth span rest => terminator depth _ _ rest rfl
  case case9 => exact fun depth span rest => terminator depth _ _ rest rfl
  case case10 =>
    intro depth open' c items ih ihelif ihelse
    refine clauses depth open' c items ih (fun b next span hb ht => ?_) fun b span hb ht => ?_
    · obtain ⟨body, -, rfl⟩ := map_eq_ok_iff.1 hb
      exact ihelif body next span ht
    · obtain ⟨body, -, rfl⟩ := map_eq_ok_iff.1 hb
      exact ihelse body span ht

theorem ofItems_eq (limit : Nat) (items : List (Spanned Item)) :
    ofItems limit items = readBlock limit 0 items >>= fun b =>
      match b.terminator with
      | none => .ok ⟨b.nodes⟩
      | some t => .error ⟨.unopened t.node.keyword, t.span⟩ := by
  rw [ofItems, readBlock]
  cases block limit 0 items with
  | error e => rfl
  | ok b => rfl

theorem parse_eq (limit : Nat) (source : String) :
    parse limit source =
      Token.scanFrom .outside 0 source.toList >>= fun ts =>
        Item.ofTokens limit ts >>= ofItems limit := rfl

/-! ### What is left -/

/-- A block runs to the end of the items, or ends before one that is a terminator. -/
def Stretch.EndsIn (b : Stretch) (items : List (Spanned Item)) : Prop :=
  (b.terminator = none ∧ b.rest = []) ∨
    ∃ x t, terminatorOf? x = some t ∧ b.terminator = some t ∧ x :: b.rest <:+ items

theorem Stretch.EndsIn.mono {b : Stretch} {items more : List (Spanned Item)} (h : b.EndsIn items)
    (hm : items <:+ more) : b.EndsIn more :=
  h.imp_right fun ⟨x, t, hx, ht, hs⟩ => ⟨x, t, hx, ht, hs.trans hm⟩

theorem Stretch.EndsIn.rest_suffix {b : Stretch} {items : List (Spanned Item)}
    (h : b.EndsIn items) : b.rest <:+ items := by
  obtain ⟨-, hr⟩ | ⟨x, -, -, -, hs⟩ := h
  · exact hr ▸ List.nil_suffix
  · exact (List.suffix_cons x b.rest).trans hs

/-- The terminator of a block is one of the items. -/
theorem Stretch.EndsIn.exists_mem {b : Stretch} {items : List (Spanned Item)} (h : b.EndsIn items)
    {t : Spanned Terminator} (ht : b.terminator = some t) :
    ∃ x ∈ items, terminatorOf? x = some t := by
  obtain ⟨hn, -⟩ | ⟨x, t', hx, ht', hs⟩ := h
  · rw [hn] at ht
    cases ht
  · obtain rfl : t' = t := Option.some.inj (ht'.symm.trans ht)
    exact ⟨x, hs.subset List.mem_cons_self, hx⟩

/-- **Blocks and clauses leave the items behind them as they are.** -/
theorem reading_suffix (limit : Nat) :
    (∀ depth items, ∀ b, readBlock limit depth items = .ok b → b.EndsIn items) ∧
    ∀ depth opening c items, ∀ t, readClauses limit depth opening c items = .ok t →
      t.rest <:+ items := by
  apply reading_induction limit
  case nil =>
    intro depth b hb
    rw [readBlock_nil, Except.ok.injEq] at hb
    subst hb
    exact .inl ⟨rfl, rfl⟩
  case node =>
    intro depth x n rest hn ih b hb
    rw [readBlock_node _ _ _ hn] at hb
    obtain ⟨b, hb', rfl⟩ := map_eq_ok_iff.1 hb
    exact (ih b hb').mono (List.suffix_cons x rest)
  case terminator =>
    intro depth x t rest ht b hb
    rw [readBlock_terminator _ _ _ ht, Except.ok.injEq] at hb
    subst hb
    exact .inr ⟨x, t, ht, rfl, List.suffix_refl _⟩
  case opening =>
    intro depth span c rest ihc ihr b hb
    rw [readBlock_if] at hb
    split at hb
    · cases hb
    · obtain ⟨t, ht, hb⟩ := bind_eq_ok_iff.1 hb
      obtain ⟨b, hb', rfl⟩ := map_eq_ok_iff.1 hb
      exact (ihr t ht b hb').mono ((ihc t ht).trans (List.suffix_cons _ rest))
  case tooDeep =>
    intro depth span c rest hd b hb
    rw [readBlock_if, if_pos hd] at hb
    cases hb
  case clauses =>
    intro depth opening c items ih ihelif ihelse t ht
    rw [readClauses_eq] at ht
    obtain ⟨b, hb, ht⟩ := bind_eq_ok_iff.1 ht
    have hr := (ih b hb).rest_suffix
    obtain ⟨nodes, _ | ⟨next | _ | _, span⟩, rest⟩ := b
    · cases ht
    · obtain ⟨tail, htail, rfl⟩ := map_eq_ok_iff.1 ht
      exact (ihelif _ next span hb rfl tail htail).trans hr
    · obtain ⟨last, hl, hlast⟩ := bind_eq_ok_iff.1 ht
      have hls := (ihelse _ span hb rfl last hl).rest_suffix.trans hr
      obtain ⟨nodes', _ | ⟨_ | _ | _, span'⟩, rest'⟩ := last
      case some.endifT =>
        cases hlast
        exact hls
      all_goals cases hlast
    · cases ht
      exact hr

end Document

end Stencil
