import Stencil.Proofs.Document.Reading

/-!
# Blocks in one pass

The items of a template can be put together without descending into the `if` blocks: one pass
from left to right, with the blocks that are open on a stack. Descending gives the same document,
and where it fails it blames the same directive for the same defect (`ofItems_eq_onePass`).
-/

namespace Stencil

namespace Document

/-! ### The pass -/

/-- The clause of an `if` block whose body is being read. -/
inductive Clause where
  /-- A branch with this condition. -/
  | branch (condition : Spanned Condition)
  /-- The part after `else`. -/
  | last

/-- An `if` block that is open. -/
structure OpenIf where
  /-- Where its `if` stands. -/
  opening : Span
  /-- The nodes before it in the body that it stands in. -/
  before : List Node
  /-- Its branches that are complete. -/
  branches : List Branch
  /-- The clause whose body is being read. -/
  clause : Clause

/-- How far the pass has come. -/
structure Pass where
  /-- The nodes of the body that is being read. -/
  body : List Node
  /-- The open `if` blocks, the innermost first. -/
  opened : List OpenIf

/-- The conditional that an open block makes when its last body is `body` and its `endif` ends at
`stop`. -/
def OpenIf.close (b : OpenIf) (body : List Node) (stop : Nat) : Node :=
  match b.clause with
  | .branch c =>
    .conditional (b.branches ++ [.mk c.node c.span body]) none ⟨b.opening.start, stop⟩
  | .last => .conditional b.branches (some body) ⟨b.opening.start, stop⟩

namespace Pass

/-- Nothing is read, and no block is open. -/
def start : Pass := ⟨[], []⟩

/-- More nodes in the body. -/
def add (m : Pass) (nodes : List Node) : Pass := { m with body := m.body ++ nodes }

/-- `elif` or `else`: the branch is complete, and the body of the next clause begins. -/
def turn (m : Pass) (keyword : Keyword) (span : Span) (next : Clause) : Except ParseError Pass :=
  match m.opened with
  | [] => .error ⟨.unopened keyword, span⟩
  | top :: outer =>
    match top.clause with
    | .last => .error ⟨.afterElse keyword, span⟩
    | .branch c =>
      .ok ⟨[], { top with
        branches := top.branches ++ [.mk c.node c.span m.body]
        clause := next } :: outer⟩

/-- `endif`: the innermost block becomes a node of the body that it stands in. -/
def leave (m : Pass) (span : Span) : Except ParseError Pass :=
  match m.opened with
  | [] => .error ⟨.unopened .endifK, span⟩
  | top :: outer => .ok ⟨top.before ++ [top.close m.body span.stop], outer⟩

/-- What one item does. -/
def step (limit : Nat) (m : Pass) (x : Spanned Item) : Except ParseError Pass :=
  match x.node with
  | .text value => .ok (m.add [.literal value x.span])
  | .interpolation name => .ok (m.add [.interpolation name x.span])
  | .directive (.includeD path) => .ok (m.add [.inclusion path x.span])
  | .directive (.ifD condition) =>
    if m.opened.length < limit then .ok ⟨[], ⟨x.span, m.body, [], .branch condition⟩ :: m.opened⟩
    else .error ⟨.tooDeep limit, x.span⟩
  | .directive (.elifD condition) => m.turn .elifK x.span (.branch condition)
  | .directive .elseD => m.turn .elseK x.span .last
  | .directive .endifD => m.leave x.span

/-- The document, at the end of the items; every block must be closed. -/
def finish (m : Pass) : Except ParseError Document :=
  match m.opened with
  | [] => .ok ⟨m.body⟩
  | top :: _ => .error ⟨.missingEndif, top.opening⟩

/-- The items one after the other. -/
def run (limit : Nat) (m : Pass) : List (Spanned Item) → Except ParseError Document
  | [] => m.finish
  | x :: rest => m.step limit x >>= fun m => m.run limit rest

end Pass

/-- The document that a list of items makes in one pass. -/
def onePass (limit : Nat) (items : List (Spanned Item)) : Except ParseError Document :=
  Pass.start.run limit items

/-! ### Steps of the pass -/

/-- The item that a terminator is. -/
def Terminator.item : Spanned Terminator → Spanned Item
  | ⟨.elifT c, span⟩ => ⟨.directive (.elifD c), span⟩
  | ⟨.elseT, span⟩ => ⟨.directive .elseD, span⟩
  | ⟨.endifT, span⟩ => ⟨.directive .endifD, span⟩

theorem item_of_terminatorOf? {x : Spanned Item} {t : Spanned Terminator}
    (h : terminatorOf? x = some t) : Terminator.item t = x := by
  unfold terminatorOf? at h
  split at h
  case h_4 => cases h
  all_goals
    cases h
    rfl

namespace Pass

variable {limit : Nat} {m : Pass}

@[simp] theorem add_nil : m.add [] = m := by
  rw [add, List.append_nil]

theorem add_add (a b : List Node) : (m.add a).add b = m.add (a ++ b) := by
  simp only [add, List.append_assoc]

@[simp] theorem run_nil : m.run limit [] = m.finish := rfl

theorem run_cons (x : Spanned Item) (rest : List (Spanned Item)) :
    m.run limit (x :: rest) = m.step limit x >>= fun m => m.run limit rest := rfl

theorem step_node {x : Spanned Item} {n : Node} (h : nodeOf? x = some n) :
    m.step limit x = .ok (m.add [n]) := by
  unfold nodeOf? at h
  split at h
  case h_4 => cases h
  all_goals
    cases h
    rfl

theorem step_if (c : Spanned Condition) (span : Span) :
    m.step limit ⟨.directive (.ifD c), span⟩ =
      if limit ≤ m.opened.length then .error ⟨.tooDeep limit, span⟩
      else .ok ⟨[], ⟨span, m.body, [], .branch c⟩ :: m.opened⟩ := by
  simp only [step]
  split
  · next h => rw [if_neg (Nat.not_le.2 h)]
  · next h => rw [if_pos (Nat.not_lt.1 h)]

/-! ### Descending and passing -/

/-- The pass goes on after a block: its nodes are in the body, and what ends it is the next
item. -/
def goOn (limit : Nat) (m : Pass) (b : Stretch) : Except ParseError Document :=
  match b.terminator with
  | none => (m.add b.nodes).finish
  | some t => (m.add b.nodes).run limit (Terminator.item t :: b.rest)

theorem bind_goOn_cons (n : Node) (x : Except ParseError Stretch) :
    (Stretch.cons n <$> x) >>= m.goOn limit = x >>= (m.add [n]).goOn limit := by
  cases x with
  | error e => rfl
  | ok b => simp only [map_ok, ok_bind, goOn, Stretch.cons, add_add, List.singleton_append]

/-- The pass goes on after a conditional whose `if` stands at `opening`. -/
def goOnAfter (limit : Nat) (opening : Span) (before : List Node) (branches : List Branch)
    (outer : List OpenIf) (t : Clauses) : Except ParseError Document :=
  run limit
    ⟨before ++ [.conditional (branches ++ t.branches) t.otherwise ⟨opening.start, t.stop⟩], outer⟩
    t.rest

theorem goOnAfter_cons (opening : Span) (before : List Node) (branches : List Branch)
    (outer : List OpenIf) (b : Branch) (t : Clauses) :
    goOnAfter limit opening before branches outer (t.cons b) =
      goOnAfter limit opening before (branches ++ [b]) outer t := by
  simp only [goOnAfter, Clauses.cons, List.append_assoc, List.singleton_append]

/-- What follows the body of a branch is read alike, if the clauses and blocks in what follows
are. -/
theorem goOn_branch {depth : Nat} {opening : Span} {c : Spanned Condition} {b : Stretch}
    {before : List Node} {branches : List Branch} {outer : List OpenIf}
    (hdepth : outer.length + 1 = depth)
    (ihelif : ∀ next span, b.terminator = some ⟨.elifT next, span⟩ → ∀ branches,
      run limit ⟨[], ⟨opening, before, branches, .branch next⟩ :: outer⟩ b.rest =
        readClauses limit depth opening next b.rest >>=
          goOnAfter limit opening before branches outer)
    (ihelse : ∀ span, b.terminator = some ⟨.elseT, span⟩ → ∀ m : Pass, m.opened.length = depth →
      m.run limit b.rest = readBlock limit depth b.rest >>= m.goOn limit) :
    goOn limit ⟨[], ⟨opening, before, branches, .branch c⟩ :: outer⟩ b =
      readAfter limit depth opening c b >>= goOnAfter limit opening before branches outer := by
  rcases ht : b.terminator with _ | ⟨next | _ | _, span⟩
  · -- the items ran out: the innermost block is this one
    simp only [goOn, readAfter, ht, error_bind]
    rfl
  · -- `elif`: the branch goes to those that are complete
    simp only [goOn, readAfter, ht]
    refine (ihelif next span ht _).trans ?_
    cases readClauses limit depth opening next b.rest with
    | error e => rfl
    | ok t => exact (goOnAfter_cons opening before branches outer _ t).symm
  · -- `else`: after the last body only `endif` is right
    simp only [goOn, readAfter, ht]
    refine (ihelse span ht _ (by simpa using hdepth)).trans ?_
    cases readBlock limit depth b.rest with
    | error e => rfl
    | ok last => rcases hl : last.terminator with _ | ⟨_ | _ | _, stop⟩ <;> simp [goOn, hl] <;> rfl
  · -- `endif`
    simp only [goOn, readAfter, ht, ok_bind]
    rfl

/-- **The pass reads blocks and clauses as the descent does**, with as many blocks open as the
descent is deep. -/
theorem run_eq (limit : Nat) :
    (∀ depth items, ∀ m : Pass, m.opened.length = depth →
      m.run limit items = readBlock limit depth items >>= m.goOn limit) ∧
    ∀ depth opening c items, ∀ before branches outer, outer.length + 1 = depth →
      run limit ⟨[], ⟨opening, before, branches, .branch c⟩ :: outer⟩ items =
        readClauses limit depth opening c items >>=
          goOnAfter limit opening before branches outer := by
  -- Any stack of the right height will do: what is below the top comes back when a block closes.
  apply reading_induction limit
  case nil =>
    intro depth m _
    rw [run_nil, readBlock_nil, ok_bind, goOn, add_nil]
  case node =>
    intro depth x n rest hx ih m hm
    rw [run_cons, step_node hx, ok_bind, ih (m.add [n]) hm, readBlock_node _ _ _ hx, bind_goOn_cons]
  case terminator =>
    intro depth x t rest hx m _
    rw [readBlock_terminator _ _ _ hx, ok_bind]
    simp only [goOn, add_nil, item_of_terminatorOf? hx]
  case tooDeep =>
    intro depth span c rest hd m hm
    rw [run_cons, step_if, readBlock_if, hm, if_pos hd, if_pos hd]
    rfl
  case opening =>
    intro depth span c rest ihclauses ihrest m hm
    rw [run_cons, step_if, readBlock_if, hm]
    split
    · rfl
    · rw [ok_bind, ihclauses m.body [] m.opened (by omega), bind_assoc]
      cases ht : readClauses limit (depth + 1) span c rest with
      | error e => rfl
      | ok t =>
        rw [ok_bind, ok_bind, bind_goOn_cons]
        exact ihrest t ht (m.add [t.node span.start]) hm
  case clauses =>
    intro depth opening c items ihbody ihelif ihelse before branches outer hdepth
    rw [readClauses_eq, bind_assoc, ihbody _ (by simpa using hdepth)]
    cases hb : readBlock limit depth items with
    | error e => rfl
    | ok b =>
      exact goOn_branch hdepth
        (fun next span ht branches => ihelif b next span hb ht before branches outer hdepth)
        fun span ht m hm => ihelse b span hb ht m hm

end Pass

/-- **Reading the blocks one inside the other gives what one pass gives**: the same document, or the
same first defect blamed on the same directive. -/
theorem ofItems_eq_onePass (limit : Nat) (items : List (Spanned Item)) :
    ofItems limit items = onePass limit items := by
  rw [ofItems_eq, onePass, (Pass.run_eq limit).1 0 items .start rfl]
  congr 1
  funext b
  rcases ht : b.terminator with _ | ⟨_ | _ | _, span⟩ <;> simp only [Pass.goOn, ht] <;> rfl

end Document

end Stencil
