import Mathlib.Data.List.Forall2
import Mathlib.Data.Option.Basic
import Stencil.Proofs.Document.Concatenation
import Stencil.Proofs.Document.OnePass

/-!
# Items in the place of an item

An item that makes a node by itself, such as an include, is replaced by the items of a whole
template. The one pass over the items shows what becomes of the document. It reads the items of the
template as it would from the start, on top of the blocks that are open (`Pass.run_onto`), and the
blocks that the template leaves as it found them are closed by the items behind it as before. Only
the template may now nest too deep.

What the document means is left open here: `R` says which nodes may stand for which, whatever the
offsets and wherever a literal text is cut (`Node.Compatible`). The document with the template in
the place of the item may then stand for the document with the item, if the nodes of the template
may stand for the node of the item (`run_replaced`).
-/

namespace Stencil

open Literal

/-! ### Nodes that stand for others -/

/-- The second branch has the condition of the first, and its body may stand for that of the
first. -/
structure Branch.Related (R : List Node → List Node → Prop) (b b' : Branch) : Prop where
  /-- The conditions are the same. -/
  condition : b.condition = b'.condition
  /-- The bodies are related. -/
  body : R b.body b'.body

/-- `R xs ys` may say that the nodes `ys` stand for the nodes `xs`: it goes through lists and
conditionals, and cares neither for offsets nor for where a literal text is cut. -/
structure Node.Compatible (R : List Node → List Node → Prop) : Prop where
  /-- Nodes stand for themselves. -/
  refl : ∀ ns, R ns ns
  /-- What stands for nodes that stand for others stands for these. -/
  trans : ∀ {xs ys zs}, R xs ys → R ys zs → R xs zs
  /-- Lists may be put together. -/
  append : ∀ {xs xs' ys ys'}, R xs xs' → R ys ys' → R (xs ++ ys) (xs' ++ ys')
  /-- Offsets do not matter. -/
  move : ∀ {x n} g, Document.nodeOf? x = some n → R [n] [n.move g]
  /-- One literal text stands for two. -/
  literal : ∀ {a b s t u}, R [.literal a s, .literal b t] [.literal (a ++ b) u]
  /-- The bodies of a conditional may be replaced. -/
  conditional : ∀ {bs bs' o o' s s'}, List.Forall₂ (Branch.Related R) bs bs' → Option.Rel R o o' →
    R [.conditional bs o s] [.conditional bs' o' s']

/-- Both results are values in the relation, or errors with the same cause. -/
inductive Follows {α β : Type} (R : α → β → Prop) :
    Except ParseError α → Except ParseError β → Prop where
  /-- Two values. -/
  | ok {a : α} {b : β} (h : R a b) : Follows R (.ok a) (.ok b)
  /-- Two errors. -/
  | error {e e' : ParseError} (h : e'.cause = e.cause) : Follows R (.error e) (.error e')

namespace Follows

variable {α β γ δ : Type} {R : α → β → Prop}

theorem bind {S : γ → δ → Prop} {x : Except ParseError α} {y : Except ParseError β}
    {k : α → Except ParseError γ} {k' : β → Except ParseError δ} (h : Follows R x y)
    (hk : ∀ a b, R a b → Follows S (k a) (k' b)) : Follows S (x >>= k) (y >>= k') := by
  cases h with
  | ok h => exact hk _ _ h
  | error h => exact .error h

theorem trans {R : α → α → Prop} {x y z : Except ParseError α} (h : Follows R x y)
    (h' : Follows R y z) (hR : ∀ {a b c}, R a b → R b c → R a c) : Follows R x z := by
  cases h with
  | ok h =>
    cases h' with
    | ok h' => exact .ok (hR h h')
  | error h =>
    cases h' with
    | error h' => exact .error (h'.trans h)

theorem exists_ok {a : α} {y : Except ParseError β} (h : Follows R (.ok a) y) :
    ∃ b, y = .ok b ∧ R a b := by
  cases h with
  | ok h => exact ⟨_, rfl, h⟩

theorem exists_error {e : ParseError} {y : Except ParseError β} (h : Follows R (.error e) y) :
    ∃ span, y = .error ⟨e.cause, span⟩ := by
  cases h with
  | @error _ e' h => exact ⟨e'.span, h ▸ rfl⟩

end Follows

namespace Document

variable {R : List Node → List Node → Prop}

/-- The same clause up to offsets. -/
inductive Clause.Related : Clause → Clause → Prop where
  /-- Branches with the same condition. -/
  | branch {c c' : Spanned Condition} (h : c.node = c'.node) : Related (.branch c) (.branch c')
  /-- Last parts. -/
  | last : Related .last .last

theorem Clause.related_refl (c : Clause) : Clause.Related c c := by
  cases c with
  | branch c => exact .branch rfl
  | last => exact .last

/-- Open blocks whose clauses are the same and whose bodies are related. -/
structure OpenIf.Related (R : List Node → List Node → Prop) (b b' : OpenIf) : Prop where
  /-- The nodes before them. -/
  before : R b.before b'.before
  /-- The branches that are complete. -/
  branches : List.Forall₂ (Branch.Related R) b.branches b'.branches
  /-- The clause whose body is being read. -/
  clause : Clause.Related b.clause b'.clause

/-- Passes that have read related nodes and have related blocks open. -/
structure Pass.Related (R : List Node → List Node → Prop) (p p' : Pass) : Prop where
  /-- The body that is being read. -/
  body : R p.body p'.body
  /-- The open blocks. -/
  opened : List.Forall₂ (OpenIf.Related R) p.opened p'.opened

/-- A branch that is complete goes to the others. -/
theorem branches_append {bs bs' : List Branch} {body body' : List Node} {c c' : Spanned Condition}
    (h : List.Forall₂ (Branch.Related R) bs bs') (hc : c.node = c'.node) (hbody : R body body') :
    List.Forall₂ (Branch.Related R) (bs ++ [.mk c.node c.span body])
      (bs' ++ [.mk c'.node c'.span body']) :=
  List.rel_append h (.cons ⟨hc, hbody⟩ .nil)

/-- Related blocks are closed to related conditionals. -/
theorem OpenIf.Related.close (hR : Node.Compatible R) {b b' : OpenIf} {body body' : List Node}
    (h : OpenIf.Related R b b') (hbody : R body body') (stop stop' : Nat) :
    R [b.close body stop] [b'.close body' stop'] := by
  obtain ⟨opening, before, branches, clause⟩ := b
  obtain ⟨opening', before', branches', clause'⟩ := b'
  obtain ⟨-, hbranches, hclause⟩ := h
  cases hclause with
  | branch hc => exact hR.conditional (branches_append hbranches hc hbody) .none
  | last => exact hR.conditional hbranches (.some hbody)

namespace Pass

variable {limit : Nat} {p p' : Pass}

theorem Related.add (hR : Node.Compatible R) (h : Related R p p') {ns ns' : List Node}
    (hn : R ns ns') : Related R (p.add ns) (p'.add ns') :=
  ⟨hR.append h.body hn, h.opened⟩

theorem related_refl (hR : Node.Compatible R) (p : Pass) : Related R p p where
  body := hR.refl p.body
  opened := List.forall₂_same.2 fun b _ =>
    ⟨hR.refl b.before, List.forall₂_same.2 fun c _ => ⟨rfl, hR.refl c.body⟩, b.clause.related_refl⟩

/-! ### Passes in step -/

theorem turn_follows (hR : Node.Compatible R) (h : Related R p p') (keyword : Keyword)
    (span span' : Span) {next next' : Clause} (hnext : Clause.Related next next') :
    Follows (Related R) (p.turn keyword span next) (p'.turn keyword span' next') := by
  obtain ⟨body, opened⟩ := p
  obtain ⟨body', opened'⟩ := p'
  obtain ⟨hbody, hopened⟩ := h
  cases hopened with
  | nil => exact .error rfl
  | @cons b b' outer outer' hb houter =>
    obtain ⟨opening, before, branches, clause⟩ := b
    obtain ⟨opening', before', branches', clause'⟩ := b'
    obtain ⟨hbefore, hbranches, hclause⟩ := hb
    cases hclause with
    | branch hc =>
      exact .ok ⟨hR.refl [],
        .cons ⟨hbefore, branches_append hbranches hc hbody, hnext⟩ houter⟩
    | last => exact .error rfl

theorem leave_follows (hR : Node.Compatible R) (h : Related R p p') (span span' : Span) :
    Follows (Related R) (p.leave span) (p'.leave span') := by
  obtain ⟨body, opened⟩ := p
  obtain ⟨body', opened'⟩ := p'
  obtain ⟨hbody, hopened⟩ := h
  cases hopened with
  | nil => exact .error rfl
  | cons hb houter =>
    exact .ok ⟨hR.append hb.before (hb.close hR hbody span.stop span'.stop), houter⟩

/-- **Related passes stay related when they read an item**, at whatever offsets, or both fail. -/
theorem step_follows (limit : Nat) (hR : Node.Compatible R) (h : Related R p p') (g : Nat → Nat)
    (x : Spanned Item) :
    Follows (Related R) (p.step limit x) (p'.step limit (Item.moveAt g x)) := by
  obtain ⟨n, hn⟩ | ⟨t, ht⟩ | ⟨c, span, rfl⟩ := item_cases x
  · rw [step_node hn, step_node (nodeOf?_moveAt g hn)]
    exact .ok (h.add hR (hR.move g hn))
  · obtain rfl := item_of_terminatorOf? ht
    obtain ⟨next | _ | _, span⟩ := t
    · exact turn_follows hR h .elifK span _ (.branch rfl)
    · exact turn_follows hR h .elseK span _ .last
    · exact leave_follows hR h span _
  · have hlength := h.opened.length_eq
    simp only [Item.moveAt, Item.move, Directive.move]
    rw [step_if, step_if, hlength]
    split
    · exact .error rfl
    · exact .ok ⟨hR.refl [], .cons ⟨h.body, .nil, .branch rfl⟩ h.opened⟩

theorem finish_follows (h : Related R p p') :
    Follows (fun d d' => R d.nodes d'.nodes) p.finish p'.finish := by
  obtain ⟨body, opened⟩ := p
  obtain ⟨body', opened'⟩ := p'
  obtain ⟨hbody, hopened⟩ := h
  cases hopened with
  | nil => exact .ok hbody
  | cons _ _ => exact .error rfl

/-- **Related passes give related documents from the same items**, at whatever offsets, or both
fail. -/
theorem run_follows (limit : Nat) (hR : Node.Compatible R) (g : Nat → Nat)
    (items : List (Spanned Item)) (h : Related R p p') :
    Follows (fun d d' => R d.nodes d'.nodes) (p.run limit items)
      (p'.run limit (items.map (Item.moveAt g))) := by
  induction items generalizing p p' with
  | nil => exact finish_follows h
  | cons x rest ih =>
    rw [List.map_cons, run_cons, run_cons]
    exact (step_follows limit hR h g x).bind fun _ _ => ih

theorem run_follows_self (limit : Nat) (hR : Node.Compatible R) (items : List (Spanned Item))
    (h : Related R p p') :
    Follows (fun d d' => R d.nodes d'.nodes) (p.run limit items) (p'.run limit items) := by
  have hid : items.map (Item.moveAt id) = items := by
    rw [List.map_congr_left fun x _ => Item.moveAt_id x, List.map_id']
  have hrun := run_follows limit hR id items h
  rwa [hid] at hrun

/-- **Where two lists of items meet, it makes no difference whether two literal texts are one.** -/
theorem run_weld (limit : Nat) (hR : Node.Compatible R) (xs ys : List (Spanned Item))
    (h : Related R p p') :
    Follows (fun d d' => R d.nodes d'.nodes) (p.run limit (xs ++ ys))
      (p'.run limit (weld xs ys)) := by
  induction xs generalizing p p' with
  | nil => exact run_follows_self limit hR ys h
  | cons x xs ih =>
    by_cases hw : text? x = none ∨ xs ≠ []
    · have hweld : weld (x :: xs) ys = x :: weld xs ys :=
        hw.elim (weld_cons · xs ys) (weld_cons_of_ne_nil · x ys)
      rw [hweld, List.cons_append, run_cons, run_cons]
      refine Follows.bind ?_ fun _ _ => ih
      have hstep := step_follows limit hR h id x
      rwa [Item.moveAt_id] at hstep
    · simp only [not_or, not_not] at hw
      obtain ⟨hx, rfl⟩ := hw
      obtain ⟨⟨s, span⟩, hx⟩ := Option.ne_none_iff_exists'.1 hx
      obtain rfl := nodeOf?_text hx
      cases ys with
      | nil =>
        rw [weld_nil_right, List.append_nil]
        exact run_follows_self limit hR _ h
      | cons y ys =>
        cases hy : text? y with
        | none =>
          rw [weld_of_head? (by simpa using hy)]
          exact run_follows_self limit hR _ h
        | some t =>
          obtain ⟨s', span'⟩ := t
          obtain rfl := nodeOf?_text hy
          rw [weld_singleton rfl rfl]
          have hadd : Related R ((p.add [.literal s span]).add [.literal s' span'])
              (p'.add [.literal (s ++ s') ⟨span.start, span'.stop⟩]) := by
            rw [add_add]
            exact h.add hR hR.literal
          exact run_follows_self limit hR ys hadd

/-! ### A pass on top of another -/

/-- What a pass has come to that has this body and these blocks open, if it began in `q`. -/
def onto (q : Pass) : (body : List Node) → (opened : List OpenIf) → Pass
  | body, [] => q.add body
  | body, top :: outer =>
    let below := q.onto top.before outer
    ⟨body, { top with before := below.body } :: below.opened⟩

theorem onto_append (q : Pass) (body ns : List Node) (opened : List OpenIf) :
    q.onto (body ++ ns) opened = (q.onto body opened).add ns := by
  cases opened with
  | nil => exact (add_add body ns).symm
  | cons top outer => rfl

theorem turn_onto {keyword : Keyword} {span : Span} {next : Clause}
    (h : p.turn keyword span next = .ok p') (q : Pass) :
    (q.onto p.body p.opened).turn keyword span next = .ok (q.onto p'.body p'.opened) := by
  obtain ⟨body, _ | ⟨⟨opening, before, branches, c | _⟩, outer⟩⟩ := p
  · cases h
  · cases h
    rfl
  · cases h

theorem leave_onto {span : Span} (h : p.leave span = .ok p') (q : Pass) :
    (q.onto p.body p.opened).leave span = .ok (q.onto p'.body p'.opened) := by
  obtain ⟨body, _ | ⟨top, outer⟩⟩ := p
  · cases h
  · cases h
    exact congrArg Except.ok (onto_append ..).symm

/-- **An item does the same on top of another pass**, unless blocks nest too deep there. -/
theorem step_onto {x : Spanned Item} (h : p.step limit x = .ok p') (q : Pass) :
    (q.onto p.body p.opened).step limit x = .ok (q.onto p'.body p'.opened) ∨
      ∃ span, (q.onto p.body p.opened).step limit x = .error ⟨.tooDeep limit, span⟩ := by
  obtain ⟨n, hn⟩ | ⟨t, ht⟩ | ⟨c, span, rfl⟩ := item_cases x
  · rw [step_node hn] at h ⊢
    cases h
    exact .inl (congrArg Except.ok (onto_append ..).symm)
  · obtain rfl := item_of_terminatorOf? ht
    obtain ⟨next | _ | _, span⟩ := t
    · exact .inl (turn_onto h q)
    · exact .inl (turn_onto h q)
    · exact .inl (leave_onto h q)
  · rw [step_if] at h ⊢
    by_cases hdeep : limit ≤ (q.onto p.body p.opened).opened.length
    · rw [if_pos hdeep]
      exact .inr ⟨span, rfl⟩
    · rw [if_neg hdeep]
      by_cases hdeep' : limit ≤ p.opened.length
      · rw [if_pos hdeep'] at h
        cases h
      · rw [if_neg hdeep'] at h
        cases h
        exact .inl rfl

/-- **The items of a whole document are read on top of another pass** as a body of nodes, unless
blocks nest too deep there. -/
theorem run_onto {items : List (Spanned Item)} {d : Document} (h : p.run limit items = .ok d)
    (q : Pass) (rest : List (Spanned Item)) :
    (q.onto p.body p.opened).run limit (items ++ rest) = (q.add d.nodes).run limit rest ∨
      ∃ span, (q.onto p.body p.opened).run limit (items ++ rest) =
        .error ⟨.tooDeep limit, span⟩ := by
  induction items generalizing p with
  | nil =>
    obtain ⟨body, _ | ⟨top, outer⟩⟩ := p
    · cases h
      exact .inl rfl
    · cases h
  | cons x items ih =>
    rw [run_cons] at h
    obtain ⟨p', hstep, hrun⟩ := bind_eq_ok_iff.1 h
    rw [List.cons_append, run_cons]
    obtain hs | ⟨span, hs⟩ := step_onto hstep q
    · rw [hs, ok_bind]
      exact ih hrun
    · rw [hs]
      exact .inr ⟨span, rfl⟩

/-! ### The replacement -/

/-- The pass after the first items, if all of them are read. -/
theorem exists_pass_of_run {xs ys : List (Spanned Item)} {d : Document}
    (h : p.run limit (xs ++ ys) = .ok d) :
    ∃ q : Pass, q.run limit ys = .ok d ∧ ∀ zs, p.run limit (xs ++ zs) = q.run limit zs := by
  induction xs generalizing p with
  | nil => exact ⟨p, h, fun _ => rfl⟩
  | cons x xs ih =>
    rw [List.cons_append, run_cons] at h
    obtain ⟨p', hstep, hrun⟩ := bind_eq_ok_iff.1 h
    obtain ⟨q, hq, hsame⟩ := ih hrun
    refine ⟨q, hq, fun zs => ?_⟩
    rw [List.cons_append, run_cons, hstep]
    exact hsame zs

/-- **Items of a whole document in the place of an item** make a document that may stand for the one
with the item, unless blocks nest too deep. -/
theorem run_replaced (hR : Node.Compatible R) {before items after : List (Spanned Item)}
    {x : Spanned Item} {n : Node} {c d : Document} (hx : nodeOf? x = some n)
    (hd : start.run limit (before ++ x :: after) = .ok d) (hc : start.run limit items = .ok c)
    (hn : R [n] c.nodes) (g g' : Nat → Nat) :
    (∃ d', start.run limit (weld before (weld (items.map (Item.moveAt g))
        (after.map (Item.moveAt g')))) = .ok d' ∧ R d.nodes d'.nodes) ∨
      ∃ span, start.run limit (weld before (weld (items.map (Item.moveAt g))
        (after.map (Item.moveAt g')))) = .error ⟨.tooDeep limit, span⟩ := by
  obtain ⟨p, hp, hsame⟩ := exists_pass_of_run hd
  rw [run_cons, step_node hx, ok_bind] at hp
  obtain ⟨c', hc', hcc⟩ := (hc ▸ run_follows limit hR g items (related_refl hR start)).exists_ok
  -- the two seams
  have hinner := run_weld limit hR (items.map (Item.moveAt g))
    (after.map (Item.moveAt g')) (related_refl hR p)
  have houter := run_weld limit hR before
    (weld (items.map (Item.moveAt g)) (after.map (Item.moveAt g'))) (related_refl hR start)
  rw [hsame] at houter
  have hweld := hinner.trans houter hR.trans
  have honto : p.onto start.body start.opened = p := add_nil
  obtain hon | ⟨span, hon⟩ := run_onto hc' p (after.map (Item.moveAt g'))
  · rw [honto] at hon
    have hadd := (related_refl hR p).add hR (hR.trans hn hcc)
    have hafter := run_follows limit hR g' after hadd
    rw [hp, ← hon] at hafter
    exact .inl (hafter.trans hweld hR.trans).exists_ok
  · rw [honto] at hon
    rw [hon] at hweld
    exact .inr hweld.exists_error

end Pass

end Document

end Stencil
