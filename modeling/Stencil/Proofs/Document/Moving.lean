import Stencil.Proofs.Condition.Steps
import Stencil.Proofs.Document.Reading
import Stencil.Proofs.Token.Brackets

/-!
# Moving a template

The offsets in a template are only carried along: tokens at other offsets make the same items,
the same conditions and the same document at those offsets, and the same errors. `move g` puts
everything at the offsets that `g` gives. Two moves matter: the template put after another text,
where `g` adds the size of that text, and the template with its offsets forgotten, where `g` is
constant.

The offset of a close marker is reckoned back from its end, so a move has to keep the width of
a marker (`KeepsMarks`).
-/

namespace Stencil

/-- The span at the offsets that `g` gives. -/
def Span.move (g : Nat → Nat) (s : Span) : Span := ⟨g s.start, g s.stop⟩

/-- The same thing at the offsets that `g` gives. -/
def Spanned.move {α : Type} (g : Nat → Nat) (x : Spanned α) : Spanned α := ⟨x.node, x.span.move g⟩

@[simp] theorem Spanned.move_node {α : Type} (g : Nat → Nat) (x : Spanned α) :
    (x.move g).node = x.node := rfl

@[simp] theorem Spanned.move_span {α : Type} (g : Nat → Nat) (x : Spanned α) :
    (x.move g).span = x.span.move g := rfl

/-- The same error at the offsets that `g` gives. -/
def ParseError.move (g : Nat → Nat) (e : ParseError) : ParseError := ⟨e.cause, e.span.move g⟩

/-- The same directive, its condition at the offsets that `g` gives. -/
def Directive.move (g : Nat → Nat) : Directive → Directive
  | .ifD c => .ifD (c.move g)
  | .elifD c => .elifD (c.move g)
  | d => d

/-- The same item, its condition at the offsets that `g` gives. -/
def Item.move (g : Nat → Nat) : Item → Item
  | .directive d => .directive (d.move g)
  | i => i

/-- The same item at the offsets that `g` gives. -/
def Item.moveAt (g : Nat → Nat) (x : Spanned Item) : Spanned Item := ⟨x.node.move g, x.span.move g⟩

theorem Item.moveAt_id (x : Spanned Item) : Item.moveAt id x = x := by
  obtain ⟨i, span⟩ := x
  cases i with
  | directive d => cases d <;> rfl
  | _ => rfl

theorem Item.moveAt_moveAt (g h : Nat → Nat) (x : Spanned Item) :
    Item.moveAt g (Item.moveAt h x) = Item.moveAt (fun i => g (h i)) x := by
  obtain ⟨i, span⟩ := x
  cases i with
  | directive d => cases d <;> rfl
  | _ => rfl

mutual

/-- The same node at the offsets that `g` gives. -/
def Node.move (g : Nat → Nat) : Node → Node
  | .literal text span => .literal text (span.move g)
  | .interpolation name span => .interpolation name (span.move g)
  | .inclusion path span => .inclusion path (span.move g)
  | .conditional branches otherwise span =>
    .conditional (Branch.moveAll g branches) (Node.moveLast g otherwise) (span.move g)

/-- The same branch at the offsets that `g` gives. -/
def Branch.move (g : Nat → Nat) : Branch → Branch
  | .mk condition span body => .mk condition (span.move g) (Node.moveAll g body)

/-- The same branches at the offsets that `g` gives. -/
def Branch.moveAll (g : Nat → Nat) : List Branch → List Branch
  | [] => []
  | b :: bs => b.move g :: Branch.moveAll g bs

/-- The same last part at the offsets that `g` gives. -/
def Node.moveLast (g : Nat → Nat) : Option (List Node) → Option (List Node)
  | none => none
  | some ns => some (Node.moveAll g ns)

/-- The same nodes at the offsets that `g` gives. -/
def Node.moveAll (g : Nat → Nat) : List Node → List Node
  | [] => []
  | n :: ns => n.move g :: Node.moveAll g ns

end

/-- The same document at the offsets that `g` gives. -/
def Document.move (g : Nat → Nat) (d : Document) : Document := ⟨Node.moveAll g d.nodes⟩

/-- The document `n` bytes further on, with everything in it. -/
def Document.shift (d : Document) (n : Nat) : Document := d.move (· + n)

/-- The document without its offsets. -/
def Document.bare (d : Document) : Document := d.move fun _ => 0

/-- A move that keeps the width of a marker, if only as nothing. -/
def KeepsMarks (g : Nat → Nat) : Prop := ∀ n, g (n + Construct.markSize) - Construct.markSize = g n

theorem keepsMarks_add (n : Nat) : KeepsMarks (· + n) := by
  intro m
  simp only [Construct.markSize]
  omega

theorem keepsMarks_const : KeepsMarks fun _ => 0 := fun _ => rfl

theorem Node.moveAll_eq_map (g : Nat → Nat) (ns : List Node) : moveAll g ns = ns.map (move g) := by
  induction ns with
  | nil => rfl
  | cons n ns ih => rw [moveAll, ih, List.map_cons]

theorem Branch.moveAll_eq_map (g : Nat → Nat) (bs : List Branch) :
    moveAll g bs = bs.map (move g) := by
  induction bs with
  | nil => rfl
  | cons b bs ih => rw [moveAll, ih, List.map_cons]

/-! ### Conditions -/

namespace Condition

variable (g : Nat → Nat)

theorem firstTooDeep_move (limit depth : Nat) (ts : List (Spanned Token)) :
    firstTooDeep limit depth (ts.map (·.move g)) =
      (firstTooDeep limit depth ts).map (·.move g) := by
  induction ts generalizing depth with
  | nil => rfl
  | cons t ts ih =>
    simp only [List.map_cons, firstTooDeep, Spanned.move_node, Spanned.move_span, ih]
    split_ifs <;> rfl

theorem read_move (ending : Span) (levels : List Level) (level : Level) (due : Bool)
    (ts : List (Spanned Token)) :
    read (ending.move g) levels level due (ts.map (·.move g)) =
      mapBoth (·.move g) id (read ending levels level due ts) := by
  fun_induction read ending levels level due ts with
  | case1 | case2 | case3 => rfl
  | case4 levels level t ts name hn ih => exact (read_name _ _ _ _ _ hn).trans ih
  | case5 levels level t ts _ ht ih =>
    obtain ⟨node, span⟩ := t
    cases ht
    exact (read_not ..).trans ih
  | case6 levels level t ts _ _ ht ih =>
    obtain ⟨node, span⟩ := t
    cases ht
    exact (read_open ..).trans ih
  | case7 levels level t ts hn hnot hopen =>
    simp only [List.map_cons, read, Spanned.move_node, hn, hnot, hopen, if_false]
    rfl
  | case8 levels level t ts ht ih =>
    obtain ⟨node, span⟩ := t
    cases ht
    exact (read_and ..).trans ih
  | case9 levels level t ts _ ht ih =>
    obtain ⟨node, span⟩ := t
    cases ht
    exact (read_or ..).trans ih
  | case10 level t ts hand hor =>
    simp only [List.map_cons, read, Spanned.move_node, hand, hor, if_false]
    rfl
  | case11 level t ts _ _ outer levels ht ih =>
    obtain ⟨node, span⟩ := t
    cases ht
    exact (read_close ..).trans ih
  | case12 level t ts hand hor outer levels hclose =>
    simp only [List.map_cons, read, Spanned.move_node, hand, hor, hclose, if_false]
    rfl

theorem extent?_move (ts : List (Spanned Token)) :
    extent? (ts.map (·.move g)) = (extent? ts).map (·.move g) := by
  cases ts with
  | nil => rfl
  | cons t ts =>
    have h : ((t :: ts).map (·.move g)).getLast (by simp) = ((t :: ts).getLast (by simp)).move g :=
      List.getLast_map _
    exact congrArg (fun x : Spanned Token => some (Span.mk (g t.span.start) x.span.stop)) h

theorem parse_move (limit : Nat) (k : Keyword) (head : Span) (closing : Nat)
    (args : List (Spanned Token)) :
    parse limit k (head.move g) (g closing) (args.map (·.move g)) =
      mapBoth (·.move g) (·.move g) (parse limit k head closing args) := by
  unfold parse
  rw [extent?_move]
  cases extent? args with
  | none => rfl
  | some extent =>
    simp only [Option.map_some, firstTooDeep_move]
    cases firstTooDeep limit 0 args with
    | some span => rfl
    | none =>
      have hr := read_move g ⟨closing, extent.stop⟩ [] .empty true args
      simp only [Span.move] at hr ⊢
      rw [hr]
      cases read ⟨closing, extent.stop⟩ [] .empty true args <;> rfl

end Condition

/-! ### Items -/

namespace Item

variable {g : Nat → Nat}

theorem alone_move (g : Nat → Nat) (k : Keyword) {d : Directive} (hd : d.move g = d)
    (args : List (Spanned Token)) :
    alone k d (args.map (·.move g)) = mapBoth (·.move g) (·.move g) (alone k d args) := by
  unfold alone
  rw [Condition.extent?_move]
  cases Condition.extent? args with
  | none => exact congrArg Except.ok hd.symm
  | some span => rfl

theorem directive?_move (hg : KeepsMarks g) (limit : Nat) (opening closing : Nat)
    (inner : List (Spanned Token)) :
    directive? limit ⟨g opening, g (closing + Construct.markSize)⟩ (inner.map (·.move g)) =
      mapBoth (·.move g) (·.move g)
        (directive? limit ⟨opening, closing + Construct.markSize⟩ inner) := by
  cases inner with
  | nil => rfl
  | cons head args =>
    obtain ⟨t, span⟩ := head
    have hk := Condition.parse_move g limit
    simp only [List.map_cons, directive?, Spanned.move_node, Spanned.move_span, hg closing,
      Nat.add_sub_cancel]
    cases t with
    | keyword k =>
      cases k with
      | ifK =>
        simp only [hk, map_mapBoth, mapBoth_map]
        rfl
      | elifK =>
        simp only [hk, map_mapBoth, mapBoth_map]
        rfl
      | elseK => exact alone_move g _ rfl args
      | endifK => exact alone_move g _ rfl args
      | includeK =>
        rcases args with _ | ⟨⟨t, s⟩, _ | ⟨t', ts⟩⟩
        · rfl
        · cases t <;> rfl
        · have he := congrArg
            (fun o => (.error ⟨.pathExpected, o.getD (span.move g)⟩ : Except ParseError Directive))
            (Condition.extent?_move g (⟨t, s⟩ :: t' :: ts))
          cases t <;> exact he
    | _ => rfl

theorem construct?_move (hg : KeepsMarks g) (limit : Nat) (opening closing : Nat)
    (inner : List (Spanned Token)) (k : Construct) :
    construct? limit ⟨g opening, g (closing + Construct.markSize)⟩ (inner.map (·.move g)) k =
      mapBoth (·.move g) (·.move g)
        (construct? limit ⟨opening, closing + Construct.markSize⟩ inner k) := by
  cases k with
  | directive =>
    simp only [construct?, directive?_move hg, map_mapBoth, mapBoth_map]
    rfl
  | interpolation =>
    rcases inner with _ | ⟨⟨t, span⟩, _ | ⟨t', ts⟩⟩
    · rfl
    · cases t <;> rfl
    · cases t <;> rfl

theorem ofTokens_move (hg : KeepsMarks g) (limit : Nat) {ts : List (Spanned Token)}
    (h : Token.Bracketed ts) :
    ofTokens limit (ts.map (·.move g)) =
      mapBoth (·.move g) (List.map (moveAt g)) (ofTokens limit ts) := by
  induction h with
  | nil => simp
  | text _ ih =>
    rw [List.map_cons, ofTokens_text, mapBoth_map, Spanned.move, ofTokens_text, ih, map_mapBoth]
    rfl
  | @construct k opening closing inner ts hi hw _ ih =>
    have hi' : ∀ t ∈ inner.map (·.move g), Token.Inside k t.node := by
      intro t ht
      obtain ⟨u, hu, rfl⟩ := List.mem_map.1 ht
      exact hi u hu
    rw [List.map_cons, List.map_append, List.map_cons, Spanned.move, Spanned.move,
      ofTokens_construct hi', ofTokens_construct hi, ih]
    simp only [Span.move, hw]
    rw [construct?_move hg]
    refine mapBoth_bind _ fun item _ => ?_
    rw [map_mapBoth, mapBoth_map]
    rfl

end Item

/-! ### Blocks -/

/-- The same terminator, its condition at the offsets that `g` gives. -/
def Terminator.move (g : Nat → Nat) : Terminator → Terminator
  | .elifT c => .elifT (c.move g)
  | t => t

namespace Document

variable (g : Nat → Nat)

/-- The same block at the offsets that `g` gives. -/
def Stretch.move (b : Stretch) : Stretch :=
  ⟨Node.moveAll g b.nodes, b.terminator.map fun t => ⟨t.node.move g, t.span.move g⟩,
    b.rest.map (Item.moveAt g)⟩

/-- The same clauses at the offsets that `g` gives. -/
def Clauses.move (t : Clauses) : Clauses :=
  ⟨Branch.moveAll g t.branches, Node.moveLast g t.otherwise, g t.stop, t.rest.map (Item.moveAt g)⟩

theorem nodeOf?_moveAt {x : Spanned Item} {n : Node} (h : nodeOf? x = some n) :
    nodeOf? (Item.moveAt g x) = some (n.move g) := by
  unfold nodeOf? at h
  split at h
  case h_4 => cases h
  all_goals
    cases h
    rfl

theorem terminatorOf?_moveAt {x : Spanned Item} {t : Spanned Terminator}
    (h : terminatorOf? x = some t) :
    terminatorOf? (Item.moveAt g x) = some ⟨t.node.move g, t.span.move g⟩ := by
  unfold terminatorOf? at h
  split at h
  case h_4 => cases h
  all_goals
    cases h
    rfl

/-- What follows the body of a branch, at other offsets. -/
theorem readAfter_move {limit depth : Nat} {opening : Span} {c : Spanned Condition} {b : Stretch}
    (helif : ∀ next span, b.terminator = some ⟨.elifT next, span⟩ →
      readClauses limit depth (opening.move g) (next.move g) (b.rest.map (Item.moveAt g)) =
        mapBoth (·.move g) (·.move g) (readClauses limit depth opening next b.rest))
    (helse : ∀ span, b.terminator = some ⟨.elseT, span⟩ →
      readBlock limit depth (b.rest.map (Item.moveAt g)) =
        mapBoth (·.move g) (·.move g) (readBlock limit depth b.rest)) :
    readAfter limit depth (opening.move g) (c.move g) (b.move g) =
      mapBoth (·.move g) (·.move g) (readAfter limit depth opening c b) := by
  simp only [readAfter, Stretch.move]
  rcases hterm : b.terminator with _ | ⟨t, span⟩
  · rfl
  cases t with
  | endifT => rfl
  | elifT next =>
    simp only [Option.map_some, Terminator.move]
    rw [helif next span hterm, map_mapBoth, mapBoth_map]
    rfl
  | elseT =>
    simp only [Option.map_some, Terminator.move]
    rw [helse span hterm]
    refine mapBoth_bind _ fun last _ => ?_
    simp only [Stretch.move]
    rcases last.terminator with _ | ⟨t, span⟩
    · rfl
    · cases t <;> rfl

/-- **Blocks at other offsets are the same blocks at those offsets.** -/
theorem reading_move (limit : Nat) :
    (∀ depth items, readBlock limit depth (items.map (Item.moveAt g)) =
      mapBoth (·.move g) (·.move g) (readBlock limit depth items)) ∧
    ∀ depth opening c items,
      readClauses limit depth (opening.move g) (c.move g) (items.map (Item.moveAt g)) =
      mapBoth (·.move g) (·.move g) (readClauses limit depth opening c items) := by
  apply reading_induction limit
  case nil =>
    intro depth
    rw [List.map_nil, readBlock_nil]
    rfl
  case node =>
    intro depth x n rest hn ih
    rw [List.map_cons, readBlock_node _ _ _ (nodeOf?_moveAt g hn), readBlock_node _ _ _ hn, ih,
      map_mapBoth, mapBoth_map]
    rfl
  case terminator =>
    intro depth x t rest ht
    rw [List.map_cons, readBlock_terminator _ _ _ (terminatorOf?_moveAt g ht),
      readBlock_terminator _ _ _ ht]
    rfl
  case opening =>
    intro depth span c rest ihc ihr
    simp only [List.map_cons, Item.moveAt, Item.move, Directive.move, readBlock_if]
    split_ifs
    · rfl
    · rw [ihc]
      refine mapBoth_bind _ fun t ht => ?_
      have := ihr t ht
      simp only [Clauses.move] at this ⊢
      rw [this, map_mapBoth, mapBoth_map]
      rfl
  case tooDeep =>
    intro depth span c rest hd
    simp only [List.map_cons, Item.moveAt, Item.move, Directive.move, readBlock_if, if_pos hd]
    rfl
  case clauses =>
    intro depth opening c items ih ihelif ihelse
    rw [readClauses_eq, readClauses_eq, ih]
    exact mapBoth_bind _ fun b hb => readAfter_move g (fun next span h => ihelif b next span hb h)
      fun span h => ihelse b span hb h

theorem ofItems_move (limit : Nat) (items : List (Spanned Item)) :
    ofItems limit (items.map (Item.moveAt g)) =
      mapBoth (·.move g) (·.move g) (ofItems limit items) := by
  rw [ofItems_eq, ofItems_eq, (reading_move g limit).1]
  refine mapBoth_bind _ fun b _ => ?_
  simp only [Stretch.move]
  rcases b.terminator with _ | ⟨t, span⟩
  · rfl
  · cases t <;> rfl

/-- **Tokens at other offsets make the same document at those offsets**, or the same error. -/
theorem ofTokens_bind_ofItems_move {g : Nat → Nat} (hg : KeepsMarks g) (limit : Nat)
    {ts : List (Spanned Token)} (h : Token.Bracketed ts) :
    (Item.ofTokens limit (ts.map (·.move g)) >>= ofItems limit) =
      mapBoth (·.move g) (·.move g) (Item.ofTokens limit ts >>= ofItems limit) := by
  rw [Item.ofTokens_move hg limit h]
  exact mapBoth_bind _ fun items _ => ofItems_move g limit items

end Document

end Stencil
