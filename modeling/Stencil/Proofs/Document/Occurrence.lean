import Stencil.Proofs.Document.OnePass

/-!
# Where the nodes of a document are

A node occurs in a list of nodes if it stands in the list, or in a body of a conditional that stands
in it, at any depth. Putting the blocks of a template together brings in no nodes but conditionals:
every other node that occurs in the document is made from one of the items
(`exists_item_of_occursIn`).
-/

namespace Stencil

/-- A node stands in a list of nodes, or in a body of a conditional in it. -/
inductive Node.OccursIn (m : Node) : List Node → Prop where
  /-- In the list itself. -/
  | here {ns : List Node} (h : m ∈ ns) : OccursIn m ns
  /-- In the body of a branch. -/
  | branch {ns : List Node} {branches : List Branch} {otherwise : Option (List Node)} {span : Span}
      {b : Branch} (hn : .conditional branches otherwise span ∈ ns) (hb : b ∈ branches)
      (h : OccursIn m b.body) : OccursIn m ns
  /-- In the last part. -/
  | last {ns : List Node} {branches : List Branch} {body : List Node} {span : Span}
      (hn : .conditional branches (some body) span ∈ ns) (h : OccursIn m body) : OccursIn m ns

namespace Node

variable {m : Node} {xs ys : List Node}

theorem not_occursIn_nil : ¬ m.OccursIn [] := by
  intro h
  cases h with
  | here h => cases h
  | branch hn _ _ => cases hn
  | last hn _ => cases hn

theorem OccursIn.mono (h : m.OccursIn xs) (hs : xs ⊆ ys) : m.OccursIn ys := by
  cases h with
  | here h => exact .here (hs h)
  | branch hn hb h => exact .branch (hs hn) hb h
  | last hn h => exact .last (hs hn) h

theorem OccursIn.of_append (h : m.OccursIn (xs ++ ys)) : m.OccursIn xs ∨ m.OccursIn ys := by
  cases h with
  | here h => exact (List.mem_append.1 h).imp .here .here
  | branch hn hb h => exact (List.mem_append.1 hn).imp (.branch · hb h) (.branch · hb h)
  | last hn h => exact (List.mem_append.1 hn).imp (.last · h) (.last · h)

/-- What occurs in a conditional occurs in one of its bodies, unless it is the conditional. -/
theorem OccursIn.of_conditional {branches : List Branch} {otherwise : Option (List Node)}
    {span : Span} (h : m.OccursIn [.conditional branches otherwise span]) :
    m = .conditional branches otherwise span ∨ (∃ b ∈ branches, m.OccursIn b.body) ∨
      ∃ body ∈ otherwise, m.OccursIn body := by
  cases h with
  | here h => exact .inl (List.mem_singleton.1 h)
  | branch hn hb h =>
    cases List.mem_singleton.1 hn
    exact .inr (.inl ⟨_, hb, h⟩)
  | last hn h =>
    cases List.mem_singleton.1 hn
    exact .inr (.inr ⟨_, rfl, h⟩)

/-- Nothing occurs in a node by itself but the node. -/
theorem OccursIn.of_nodeOf? {x : Spanned Item} {n : Node} (hx : Document.nodeOf? x = some n)
    (h : m.OccursIn [n]) : m = n := by
  have hn : ∀ branches otherwise span, n ≠ .conditional branches otherwise span := by
    unfold Document.nodeOf? at hx
    split at hx <;> cases hx <;> exact nofun
  cases h with
  | here h => exact List.mem_singleton.1 h
  | branch hc _ _ => exact absurd (List.mem_singleton.1 hc).symm (hn _ _ _)
  | last hc _ => exact absurd (List.mem_singleton.1 hc).symm (hn _ _ _)

end Node

namespace Document

/-- A node occurs in what the pass has read. -/
def Pass.Holds (p : Pass) (m : Node) : Prop :=
  m.OccursIn p.body ∨
    ∃ b ∈ p.opened, m.OccursIn b.before ∨ ∃ branch ∈ b.branches, m.OccursIn branch.body

namespace Pass

variable {limit : Nat} {p p' : Pass} {m : Node}

/-- What occurs in a block that is closed was there before, but for the conditional itself. -/
theorem holds_of_close {top : OpenIf} {outer : List OpenIf} {body : List Node} {stop : Nat}
    (hm : ∀ branches otherwise span, m ≠ .conditional branches otherwise span)
    (h : m.OccursIn [top.close body stop]) : Holds ⟨body, top :: outer⟩ m := by
  have hopened : ∀ branch ∈ top.branches, m.OccursIn branch.body →
      Holds ⟨body, top :: outer⟩ m := fun branch hb h =>
    .inr ⟨top, List.mem_cons_self, .inr ⟨branch, hb, h⟩⟩
  unfold OpenIf.close at h
  split at h
  · obtain h | ⟨branch, hb, h⟩ | ⟨_, ⟨⟩, -⟩ := h.of_conditional
    · exact absurd h (hm _ _ _)
    · obtain hb | hb := List.mem_append.1 hb
      · exact hopened branch hb h
      · cases List.mem_singleton.1 hb
        exact .inl h
  · obtain h | ⟨branch, hb, h⟩ | ⟨_, ⟨⟩, h⟩ := h.of_conditional
    · exact absurd h (hm _ _ _)
    · exact hopened branch hb h
    · exact .inl h

/-- `elif` and `else` bring in no nodes. -/
theorem holds_of_turn {keyword : Keyword} {span : Span} {next : Clause}
    (h : p.turn keyword span next = .ok p') (hm : p'.Holds m) : p.Holds m := by
  obtain ⟨body, _ | ⟨⟨opening, before, branches, c | _⟩, outer⟩⟩ := p
  · cases h
  · cases h
    obtain hm | ⟨b, hb, hm⟩ := hm
    · exact absurd hm Node.not_occursIn_nil
    obtain rfl | hb := List.mem_cons.1 hb
    · obtain hm | ⟨branch, hbranch, hm⟩ := hm
      · exact .inr ⟨_, List.mem_cons_self, .inl hm⟩
      · obtain hbranch | hbranch := List.mem_append.1 hbranch
        · exact .inr ⟨_, List.mem_cons_self, .inr ⟨branch, hbranch, hm⟩⟩
        · cases List.mem_singleton.1 hbranch
          exact .inl hm
    · exact .inr ⟨b, List.mem_cons_of_mem _ hb, hm⟩
  · cases h

/-- **An item brings in the node it makes, and conditionals.** -/
theorem holds_of_step {x : Spanned Item} (h : p.step limit x = .ok p')
    (hm : ∀ branches otherwise span, m ≠ .conditional branches otherwise span)
    (hp : p'.Holds m) : p.Holds m ∨ nodeOf? x = some m := by
  obtain ⟨n, hn⟩ | ⟨t, ht⟩ | ⟨c, span, rfl⟩ := item_cases x
  · rw [step_node hn, Except.ok.injEq] at h
    subst h
    obtain hp | hp := hp
    · obtain hp | hp := Node.OccursIn.of_append hp
      · exact .inl (.inl hp)
      · exact .inr (hp.of_nodeOf? hn ▸ hn)
    · exact .inl (.inr hp)
  · obtain rfl := item_of_terminatorOf? ht
    obtain ⟨next | _ | _, span⟩ := t
    · exact .inl (holds_of_turn h hp)
    · exact .inl (holds_of_turn h hp)
    · obtain ⟨body, _ | ⟨top, outer⟩⟩ := p
      · cases h
      · cases h
        obtain hp | ⟨b, hb, hp⟩ := hp
        · obtain hp | hp := Node.OccursIn.of_append hp
          · exact .inl (.inr ⟨top, List.mem_cons_self, .inl hp⟩)
          · exact .inl (holds_of_close hm hp)
        · exact .inl (.inr ⟨b, List.mem_cons_of_mem top hb, hp⟩)
  · rw [step_if] at h
    split at h
    · cases h
    · cases h
      obtain hp | ⟨b, hb, hp⟩ := hp
      · exact absurd hp Node.not_occursIn_nil
      obtain rfl | hb := List.mem_cons.1 hb
      · obtain hp | ⟨branch, hbranch, -⟩ := hp
        · exact .inl (.inl hp)
        · cases hbranch
      · exact .inl (.inr ⟨b, hb, hp⟩)

theorem holds_of_run {items : List (Spanned Item)} {d : Document} (h : p.run limit items = .ok d)
    (hm : ∀ branches otherwise span, m ≠ .conditional branches otherwise span)
    (hd : m.OccursIn d.nodes) : p.Holds m ∨ ∃ x ∈ items, nodeOf? x = some m := by
  induction items generalizing p with
  | nil =>
    obtain ⟨body, _ | ⟨top, outer⟩⟩ := p
    · cases h
      exact .inl (.inl hd)
    · cases h
  | cons x rest ih =>
    rw [run_cons] at h
    obtain ⟨p', hs, hr⟩ := bind_eq_ok_iff.1 h
    obtain hp | ⟨y, hy, hn⟩ := ih hr
    · exact (holds_of_step hs hm hp).imp_right fun hn => ⟨x, List.mem_cons_self, hn⟩
    · exact .inr ⟨y, List.mem_cons_of_mem x hy, hn⟩

end Pass

/-- **Every node of a document but the conditionals is made from an item.** -/
theorem exists_item_of_occursIn {limit : Nat} {items : List (Spanned Item)} {d : Document}
    (h : Pass.start.run limit items = .ok d) {m : Node}
    (hm : ∀ branches otherwise span, m ≠ .conditional branches otherwise span)
    (hd : m.OccursIn d.nodes) : ∃ x ∈ items, nodeOf? x = some m := by
  obtain (hp | ⟨b, hb, -⟩) | hx := Pass.holds_of_run h hm hd
  · exact absurd hp Node.not_occursIn_nil
  · cases hb
  · exact hx

end Document

end Stencil
