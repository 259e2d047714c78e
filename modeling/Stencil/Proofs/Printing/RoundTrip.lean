import Stencil.Proofs.Printing.Items

/-!
# Reading a printed document

The items of a formed document are laid out so that they can be read back, and putting their
blocks together gives its nodes again. So a printed document parses as the document it was
(`parse_print`), whatever the blanks and quotes, if only it nests no deeper than is allowed.
-/

namespace Stencil

/-! ### The items of nodes -/

namespace Node

open Item (Laid)

variable {limit : Nat}

/-- The items of a node that is no literal text begin with a construct. -/
theorem isText_of_head?_items {n : Node} (hn : n.Formed) (hl : n.isLiteral = false)
    (items : List Item) : ∀ i ∈ (n.items ++ items).head?, i.isText = false := by
  cases hn with
  | literal _ => simp [isLiteral] at hl
  | interpolation _ => simp [Node.items, Item.isText]
  | inclusion => simp [Node.items, Item.isText]
  | @conditional branches _ _ hb _ _ _ _ _ =>
    cases branches with
    | nil => exact absurd rfl hb
    | cons b bs =>
      obtain ⟨c, span, body⟩ := b
      simp [Node.items, Branch.allItems, Branch.items, Item.isText]

/-- What it takes for the items of a node to be laid out before others. -/
def LaysOut (limit : Nat) (n : Node) : Prop :=
  ∀ items, Laid limit items → (n.isLiteral → ∀ i ∈ items.head?, n.Sealed ∧ i.isText = false) →
    Laid limit (n.items ++ items)

/-- Nodes are laid out if each of them is, no two literal texts meet, and none that ends in `[` is
followed by anything. -/
theorem laid_allItems {ns : List Node} (hf : ∀ n ∈ ns, n.Formed) (hl : ∀ n ∈ ns, n.LaysOut limit)
    (hsep : Separate ns) (hseal : ∀ n ∈ ns.dropLast, n.Sealed) {items : List Item}
    (hi : Laid limit items) (hnext : ∀ i ∈ items.head?, i.isText = false ∧ ∀ n ∈ ns, n.Sealed) :
    Laid limit (allItems ns ++ items) := by
  induction ns with
  | nil => exact hi
  | cons n ns ih =>
    rw [allItems, List.append_assoc]
    have hrest := ih (fun m hm => hf m (List.mem_cons_of_mem _ hm))
      (fun m hm => hl m (List.mem_cons_of_mem _ hm))
      hsep.tail (fun m hm => hseal m ?_) fun i hm => ?_
    · refine hl n List.mem_cons_self _ hrest fun hlit i hm => ?_
      cases ns with
      | nil => exact ⟨(hnext i hm).2 n List.mem_cons_self, (hnext i hm).1⟩
      | cons m ns =>
        have hm' : m.isLiteral = false := by
          have := (List.isChain_cons_cons.1 hsep).1
          simpa [hlit] using this
        refine ⟨hseal n (by simp), ?_⟩
        rw [allItems, List.append_assoc] at hm
        exact isText_of_head?_items (hf m (by simp)) hm' _ i hm
    · cases ns with
      | nil => simp at hm
      | cons m' ns =>
        rw [List.dropLast_cons_of_ne_nil (by simp)]
        exact List.mem_cons_of_mem _ hm
    · exact ⟨(hnext i hm).1, fun m hm' => (hnext i hm).2 m (List.mem_cons_of_mem _ hm')⟩

/-- The same for the nodes of a body, none of which may end in `[`. -/
theorem laid_body {ns : List Node} (hf : ∀ n ∈ ns, n.Formed) (hl : ∀ n ∈ ns, n.LaysOut limit)
    (hs : Separate ns ∧ ∀ n ∈ ns, n.Sealed) {items : List Item} (hi : Laid limit items)
    (hnext : ∀ i ∈ items.head?, i.isText = false) : Laid limit (allItems ns ++ items) :=
  laid_allItems hf hl hs.1 (fun n hn => hs.2 n (List.dropLast_subset ns hn)) hi
    fun i hi => ⟨hnext i hi, hs.2⟩

theorem laid_branches {branches : List Branch} (hc : ∀ b ∈ branches, b.condition.Formed)
    (hd : ∀ b ∈ branches, b.condition.parenDepth ≤ limit)
    (hf : ∀ b ∈ branches, ∀ n ∈ b.body, n.Formed)
    (hl : ∀ b ∈ branches, ∀ n ∈ b.body, n.LaysOut limit)
    (hs : ∀ b ∈ branches, Separate b.body ∧ ∀ n ∈ b.body, n.Sealed)
    {head : Spanned Condition → Directive}
    (hh : ∀ c, Item.Reread limit c → (Item.directive (head c)).Formed limit) {items : List Item}
    (hi : Laid limit items) (hnext : ∀ i ∈ items.head?, i.isText = false) :
    Laid limit (Branch.allItems head branches ++ items) ∧
      ∀ i ∈ (Branch.allItems head branches ++ items).head?, i.isText = false := by
  induction branches generalizing head with
  | nil => exact ⟨hi, hnext⟩
  | cons b bs ih =>
    have helif : ∀ c, Item.Reread limit c →
        (Item.directive (.elifD c)).Formed limit := fun c hc => hc
    obtain ⟨hrest, hrestnext⟩ := ih (fun b hb => hc b (List.mem_cons_of_mem _ hb))
      (fun b hb => hd b (List.mem_cons_of_mem _ hb)) (fun b hb => hf b (List.mem_cons_of_mem _ hb))
      (fun b hb => hl b (List.mem_cons_of_mem _ hb))
      (fun b hb => hs b (List.mem_cons_of_mem _ hb)) helif
    obtain ⟨c, span, body⟩ := b
    have hb : Branch.mk c span body ∈ Branch.mk c span body :: bs := List.mem_cons_self
    rw [Branch.allItems, Branch.items, List.cons_append, List.cons_append, List.append_assoc]
    refine ⟨.construct rfl (hh _ ⟨rfl, hc _ hb, hd _ hb⟩) ?_, by simp [Item.isText]⟩
    exact laid_body (hf _ hb) (hl _ hb) (hs _ hb) hrest hrestnext

theorem laysOut {n : Node} {depth : Nat} (hf : n.Formed) (hw : n.NestsWithin limit depth) :
    n.LaysOut limit := by
  induction hf generalizing depth with
  | literal h =>
    exact fun items hi hn =>
      .text h (fun i hm => ⟨(hn rfl i hm).1 _ _ rfl, (hn rfl i hm).2⟩) hi
  | interpolation h => exact fun items hi _ => .construct rfl h hi
  | inclusion => exact fun items hi _ => .construct rfl trivial hi
  | @conditional branches otherwise span hb hc hn hs hno hso ih iho =>
    intro items hi _
    cases hw with
    | conditional hd hwn hwo =>
      have hend : Laid limit (.directive .endifD :: items) := .construct rfl trivial hi
      have hlast : Laid limit (lastItems otherwise ++ .directive .endifD :: items) ∧
          ∀ i ∈ (lastItems otherwise ++ .directive .endifD :: items).head?, i.isText = false := by
        cases otherwise with
        | none => exact ⟨hend, by simp [lastItems, Item.isText]⟩
        | some ns =>
          refine ⟨.construct rfl trivial ?_, by simp [lastItems, Item.isText]⟩
          exact laid_body (hno ns rfl) (fun n hn => iho ns rfl n hn (hwo ns rfl n hn))
            (hso ns rfl) hend (by simp [Item.isText])
      have hif : ∀ c, Item.Reread limit c → (Item.directive (.ifD c)).Formed limit := fun c hc => hc
      rw [Node.items, List.append_assoc, List.append_assoc, List.singleton_append]
      exact (laid_branches hc hd hn (fun b hb n hn => ih b hb n hn (hwn b hb n hn)) hs hif
        hlast.1 hlast.2).1

end Node

/-! ### The blocks of items -/

/-- A node without its offsets. -/
def Node.bare (n : Node) : Node := n.move fun _ => 0

/-- A branch without its offsets. -/
def Branch.bare (b : Branch) : Branch := b.move fun _ => 0

theorem Branch.bare_mk (c : Condition) (span : Span) (body : List Node) :
    Branch.bare (.mk c span body) = .mk c ⟨0, 0⟩ (body.map Node.bare) := by
  rw [Branch.bare, Branch.move, Node.moveAll_eq_map]
  rfl

theorem Node.bare_conditional (branches : List Branch) (otherwise : Option (List Node))
    (span : Span) :
    Node.bare (.conditional branches otherwise span) =
      .conditional (branches.map Branch.bare) (otherwise.map (List.map Node.bare)) ⟨0, 0⟩ := by
  rw [Node.bare, Node.move, Branch.moveAll_eq_map]
  cases otherwise with
  | none => rfl
  | some ns =>
    rw [Node.moveLast, Node.moveAll_eq_map]
    rfl

namespace Document

/-- Nodes at the front, read before the block. -/
def Stretch.prepend (ns : List Node) (b : Stretch) : Stretch := { b with nodes := ns ++ b.nodes }

/-- What it takes for a node to be read back from its items inside `depth` open blocks. -/
def ReadsBack (limit depth : Nat) (n : Node) : Prop :=
  ∀ rest, readBlock limit depth (n.items.map Spanned.bare ++ rest) =
    Stretch.cons n.bare <$> readBlock limit depth rest

variable {limit depth : Nat}

theorem readBlock_allItems {ns : List Node} (h : ∀ n ∈ ns, ReadsBack limit depth n)
    (rest : List (Spanned Item)) :
    readBlock limit depth ((Node.allItems ns).map Spanned.bare ++ rest) =
      Stretch.prepend (ns.map Node.bare) <$> readBlock limit depth rest := by
  induction ns with
  | nil => exact (id_map _).symm
  | cons n ns ih =>
    rw [Node.allItems, List.map_append, List.append_assoc, h n List.mem_cons_self,
      ih fun m hm => h m (List.mem_cons_of_mem _ hm), ← comp_map]
    rfl

/-- The nodes before a terminator are a block. -/
theorem readBlock_allItems_terminator {ns : List Node} (h : ∀ n ∈ ns, ReadsBack limit depth n)
    {x : Spanned Item} {t : Spanned Terminator} (ht : terminatorOf? x = some t)
    (rest : List (Spanned Item)) :
    readBlock limit depth ((Node.allItems ns).map Spanned.bare ++ x :: rest) =
      .ok ⟨ns.map Node.bare, some t, rest⟩ := by
  rw [readBlock_allItems h, readBlock_terminator _ _ _ ht, map_ok, Stretch.prepend, List.append_nil]

/-- **The clauses of a conditional are read back from its items.** -/
theorem readClauses_items {otherwise : Option (List Node)}
    (ho : ∀ ns ∈ otherwise, ∀ n ∈ ns, ReadsBack limit depth n) {c : Condition} {body : List Node}
    (hbody : ∀ n ∈ body, ReadsBack limit depth n) {branches : List Branch}
    (hb : ∀ b ∈ branches, ∀ n ∈ b.body, ReadsBack limit depth n) (opening : Span)
    (rest : List (Spanned Item)) :
    readClauses limit depth opening (.bare c)
        ((Node.allItems body ++ (Branch.allItems .elifD branches ++
          (Node.lastItems otherwise ++ [Item.directive .endifD]))).map Spanned.bare ++ rest) =
      .ok ⟨.mk c ⟨0, 0⟩ (body.map Node.bare) :: branches.map Branch.bare,
        otherwise.map (List.map Node.bare), 0, rest⟩ := by
  induction branches generalizing c body with
  | cons b bs ih =>
    obtain ⟨c', span, body'⟩ := b
    have hread := ih (c := c') (hb (.mk c' span body') List.mem_cons_self) fun b h =>
      hb b (List.mem_cons_of_mem _ h)
    simp only [Branch.allItems, Branch.items, List.map_append, List.map_cons, List.cons_append,
      List.append_assoc] at hread ⊢
    rw [readClauses_eq, readBlock_allItems_terminator hbody rfl, ok_bind]
    refine (congrArg (Clauses.cons _ <$> ·) hread).trans ?_
    rw [Branch.bare_mk]
    rfl
  | nil =>
    cases otherwise with
    | none =>
      simp only [Branch.allItems, Node.lastItems, List.map_append, List.map_cons, List.map_nil,
        List.nil_append, List.append_assoc, List.cons_append]
      rw [readClauses_eq, readBlock_allItems_terminator hbody rfl, ok_bind]
      rfl
    | some ns =>
      simp only [Branch.allItems, Node.lastItems, List.map_append, List.map_cons, List.map_nil,
        List.nil_append, List.append_assoc, List.cons_append]
      rw [readClauses_eq, readBlock_allItems_terminator hbody rfl, ok_bind]
      change (readBlock limit depth _ >>= _) = _
      rw [readBlock_allItems_terminator (ho ns rfl) rfl]
      rfl

theorem readsBack {n : Node} {left : Nat} (hf : n.Formed) (hw : n.NestsWithin limit left)
    (hd : depth + left ≤ limit) :
    ReadsBack limit depth n := by
  induction hf generalizing depth left with
  | literal _ => exact fun rest => readBlock_node limit depth rest rfl
  | interpolation _ => exact fun rest => readBlock_node limit depth rest rfl
  | inclusion => exact fun rest => readBlock_node limit depth rest rfl
  | @conditional branches otherwise span hb hc hn hs hno hso ih iho =>
    intro rest
    cases hw with
    | @conditional left _ _ _ _ hwn hwo =>
      cases branches with
      | nil => exact absurd rfl hb
      | cons b bs =>
        obtain ⟨c, cspan, body⟩ := b
        have hbody : ∀ n ∈ body, ReadsBack limit (depth + 1) n := fun n hn =>
          ih (.mk c cspan body) List.mem_cons_self n hn
            (hwn (.mk c cspan body) List.mem_cons_self n hn) (by omega)
        have hbs : ∀ b ∈ bs, ∀ n ∈ b.body, ReadsBack limit (depth + 1) n := fun b hb n hn =>
          ih b (List.mem_cons_of_mem _ hb) n hn (hwn b (List.mem_cons_of_mem _ hb) n hn) (by omega)
        have hlast : ∀ ns ∈ otherwise, ∀ n ∈ ns, ReadsBack limit (depth + 1) n := fun ns hns n hn =>
          iho ns hns n hn (hwo ns hns n hn) (by omega)
        have hread := readClauses_items (c := c) hlast hbody hbs ⟨0, 0⟩ rest
        simp only [Node.items, Branch.allItems, Branch.items, List.map_append, List.map_cons,
          List.cons_append, List.append_assoc] at hread ⊢
        refine (readBlock_if limit depth _ ⟨0, 0⟩ (.bare c)).trans ?_
        rw [if_neg (by omega), hread, ok_bind]
        rw [Node.bare_conditional, List.map_cons, Branch.bare_mk]
        rfl

/-! ### Documents -/

theorem ofItems_allItems {d : Document} (hf : d.Formed) (hw : d.NestsWithin limit) :
    ofItems limit ((Node.allItems d.nodes).map Spanned.bare) = .ok d.bare := by
  have hback : ∀ n ∈ d.nodes, ReadsBack limit 0 n := fun n hn =>
    readsBack (hf.nodes n hn) (hw n hn) (by omega)
  have hread := readBlock_allItems hback []
  rw [List.append_nil] at hread
  rw [ofItems_eq, hread, readBlock_nil, bare, move, Node.moveAll_eq_map]
  exact congrArg (fun ns => Except.ok (Document.mk ns)) (List.append_nil _)

/-- **A printed document parses as the document it was, but for its offsets.** -/
theorem parse_print {d : Document} (hf : d.Formed) (hw : d.NestsWithin limit) (style : Style) :
    bare <$> parse limit (d.print style) = .ok d.bare := by
  have hlaid : Item.Laid limit (Node.allItems d.nodes) := by
    have := Node.laid_allItems hf.nodes (fun n hn => Node.laysOut (hf.nodes n hn) (hw n hn))
      hf.separate hf.sealed_of_mem .nil (by simp)
    rwa [List.append_nil] at this
  obtain ⟨ts, hs, hts⟩ := hlaid.scansOutside style 0 0
  have hbare : ts.map (·.move fun _ => 0) =
      ((Node.allItems d.nodes).flatMap Item.tokens).map Spanned.bare := by
    rw [← hts, List.map_map]
    rfl
  have hmove := ofTokens_bind_ofItems_move keepsMarks_const limit hs.bracketed
  rw [hbare, hlaid.ofTokens, ok_bind, ofItems_allItems hf hw] at hmove
  rw [parse_eq, print, String.toList_ofList, Token.scanFrom_of_scans hs, ok_bind]
  obtain ⟨d', hd', hb⟩ := mapBoth_eq_ok_iff.1 hmove.symm
  rw [hd', map_ok]
  exact congrArg Except.ok hb

/-- A keyword as a name, parentheses, and a path with a marker and quotes in it. -/
theorem parse_print_with_markers_in_path :
    let node : Node := .conditional [.mk (.and [.param "if", .not (.param "x")]) ⟨0, 0⟩
      [.inclusion "%]\x27" ⟨0, 0⟩]] none ⟨0, 0⟩
    bare <$> parse 1 "[% if $if and ( not $x ) %][% include '%]\x5c\x27' %][% endif %]][" =
      .ok ⟨[node, .literal "][" ⟨0, 0⟩]⟩ := by
  intro node
  have hif : Condition.IsName "if" := ⟨'i', ['f'], rfl, rfl, List.all_eq_true.1 rfl⟩
  have hx : Condition.IsName "x" := ⟨'x', [], rfl, rfl, List.all_eq_true.1 rfl⟩
  have hc : Condition.Formed (.and [.param "if", .not (.param "x")]) := by
    refine .and (by decide) fun c hc => ?_
    simp only [List.mem_cons, List.not_mem_nil, or_false] at hc
    rcases hc with rfl | rfl
    · exact .param hif
    · exact .not (.param hx)
  have hnode : node.Formed := by
    refine .conditional (by simp) ?_ ?_ ?_ (by simp) (by simp)
    · simpa [Branch.condition] using hc
    · simpa [Branch.body] using .inclusion
    · simp [Branch.body, Node.Separate, Node.Sealed]
  have hliteral : IsLiteralText "][" := ⟨by decide, fun k => by cases k <;> decide⟩
  have hf : Document.Formed ⟨[node, .literal "][" ⟨0, 0⟩]⟩ := by
    refine ⟨?_, .cons_cons (by simp [node, Node.isLiteral]) (.singleton _), ?_⟩
    · simpa using ⟨hnode, .literal hliteral⟩
    · simp [node, Node.Sealed]
  have hw : Document.NestsWithin 1 ⟨[node, .literal "][" ⟨0, 0⟩]⟩ := by
    have hnests : node.NestsWithin 1 1 := by
      refine .conditional ?_ ?_ (by simp)
      · simp [Branch.condition, Condition.parenDepth, Condition.operandDepth, Condition.wrapDepth]
      · simpa [Branch.body] using .inclusion
    simpa [Document.NestsWithin] using ⟨hnests, .literal⟩
  exact parse_print hf hw ⟨fun _ => ⟨[' '], by simp, List.all_eq_true.1 rfl⟩, fun _ => .single⟩

end Document

end Stencil
