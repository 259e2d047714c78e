import Mathlib
import Stencil.Proofs.Condition.Steps
import Stencil.Proofs.Except
import Stencil.Render

/-!
# The grammar of conditions

    cond := conj ('or' conj)*
    conj := neg ('and' neg)*
    neg  := 'not'* atom
    atom := variable | identifier | '(' cond ')'

A derivation of a condition by this grammar has its tokens, the tree that it stands for and its
truth value. The reader accepts exactly the token lists that have a derivation, and what it reads
is the tree of that derivation, which has the same truth value (`parse_eq_ok_iff_derivation`).

The reader goes over the tokens once and keeps a stack of levels. What it has read at one level is
a part of a derivation (`Level.Keeps`): operands that are complete, each with the operator behind
it, and then `not`s, where an operand is due, or one more operand.
-/

namespace Stencil

namespace Condition

/-! ### Derivations -/

mutual

/-- `atom := variable | identifier | '(' cond ')'`. -/
inductive Atom where
  /-- A variable. -/
  | var (name : String)
  /-- An identifier. -/
  | ident (name : String)
  /-- A condition in parentheses. -/
  | group (c : Disjunction)

/-- `neg := 'not'* atom`. -/
inductive Negation where
  /-- So many `not`s before an operand. -/
  | mk (nots : Nat) (operand : Atom)

/-- `conj := neg ('and' neg)*`. -/
inductive Conjunction where
  /-- The last operand. -/
  | last (n : Negation)
  /-- An operand, `and`, and further operands. -/
  | and (n : Negation) (more : Conjunction)

/-- `cond := conj ('or' conj)*`. -/
inductive Disjunction where
  /-- The last operand. -/
  | last (c : Conjunction)
  /-- An operand, `or`, and further operands. -/
  | or (c : Conjunction) (more : Disjunction)

end

mutual

/-- The tokens of an atom. -/
def Atom.tokens : Atom → List Token
  | .var name => [.var name]
  | .ident name => [.ident name]
  | .group c => .parenOpen :: (c.tokens ++ [.parenClose])

/-- The tokens of a negation. -/
def Negation.tokens : Negation → List Token
  | .mk nots a => List.replicate nots .notOp ++ a.tokens

/-- The tokens of a conjunction. -/
def Conjunction.tokens : Conjunction → List Token
  | .last n => n.tokens
  | .and n more => n.tokens ++ .andOp :: more.tokens

/-- The tokens of a disjunction. -/
def Disjunction.tokens : Disjunction → List Token
  | .last c => c.tokens
  | .or c more => c.tokens ++ .orOp :: more.tokens

end

mutual

/-- The tree of an atom: parentheses leave nothing but the tree inside them. -/
def Atom.tree : Atom → Condition
  | .var name => param name
  | .ident name => param name
  | .group c => c.tree

/-- The tree of a negation: an odd number of `not`s is one, an even number is none. -/
def Negation.tree : Negation → Condition
  | .mk nots a => if nots % 2 = 1 then .not a.tree else a.tree

/-- The trees of the operands of a conjunction, in order. -/
def Conjunction.trees : Conjunction → List Condition
  | .last n => [n.tree]
  | .and n more => n.tree :: more.trees

/-- The tree of a conjunction: one node for all operands, and none for a single one. -/
def Conjunction.tree : Conjunction → Condition
  | .last n => n.tree
  | .and n more => .and (n.tree :: more.trees)

/-- The trees of the operands of a disjunction, in order. -/
def Disjunction.trees : Disjunction → List Condition
  | .last c => [c.tree]
  | .or c more => c.tree :: more.trees

/-- The tree of a disjunction: one node for all operands, and none for a single one. -/
def Disjunction.tree : Disjunction → Condition
  | .last c => c.tree
  | .or c more => .or (c.tree :: more.trees)

end

section

variable (truthy : String → Bool)

mutual

/-- The truth value of an atom. -/
def Atom.value : Atom → Bool
  | .var name => truthy name
  | .ident name => truthy name
  | .group c => c.value

/-- The truth value of a negation: each `not` turns it round. -/
def Negation.value : Negation → Bool
  | .mk nots a => Nat.repeat Bool.not nots a.value

/-- The truth value of a conjunction. -/
def Conjunction.value : Conjunction → Bool
  | .last n => n.value
  | .and n more => n.value && more.value

/-- The truth value of a disjunction. -/
def Disjunction.value : Disjunction → Bool
  | .last c => c.value
  | .or c more => c.value || more.value

end

end

/-! ### Trees have the value of their derivation -/

theorem combine_of_ne_nil {join : List Condition → Condition} {c : Condition}
    {cs : List Condition} (h : cs ≠ []) : combine join (c :: cs) = join (c :: cs) := by
  cases cs with
  | nil => exact absurd rfl h
  | cons d ds => rfl

theorem Conjunction.trees_ne_nil (c : Conjunction) : c.trees ≠ [] := by
  cases c <;> simp [trees]

theorem Disjunction.trees_ne_nil (d : Disjunction) : d.trees ≠ [] := by
  cases d <;> simp [trees]

theorem Conjunction.combine_trees (c : Conjunction) : combine .and c.trees = c.tree := by
  cases c with
  | last n => simp only [trees, tree, combine]
  | and n more => simp only [trees, tree, combine_of_ne_nil more.trees_ne_nil]

theorem Disjunction.combine_trees (d : Disjunction) : combine .or d.trees = d.tree := by
  cases d with
  | last c => simp only [trees, tree, combine]
  | or c more => simp only [trees, tree, combine_of_ne_nil more.trees_ne_nil]

section

variable (truthy : String → Bool)

/-- `not`s pair off. -/
theorem repeat_not (n : Nat) (b : Bool) :
    Nat.repeat Bool.not n b = if n % 2 = 1 then !b else b := by
  induction n with
  | zero => rfl
  | succ n ih =>
    rw [Nat.repeat, ih]
    obtain h | h := Nat.mod_two_eq_zero_or_one n
    · rw [if_neg (by omega), if_pos (by omega)]
    · rw [if_pos h, if_neg (by omega), Bool.not_not]

mutual

theorem Atom.holds_tree : ∀ a : Atom, holds truthy a.tree = a.value truthy
  | .var name => by rw [Atom.tree, Atom.value, holds]
  | .ident name => by rw [Atom.tree, Atom.value, holds]
  | .group c => by rw [Atom.tree, Atom.value, Disjunction.holds_tree c]

theorem Negation.holds_tree : ∀ n : Negation, holds truthy n.tree = n.value truthy
  | .mk nots a => by
    rw [Negation.tree, Negation.value, repeat_not, ← Atom.holds_tree a]
    split
    · rw [holds]
    · rfl

theorem Conjunction.allHold_trees : ∀ c : Conjunction, allHold truthy c.trees = c.value truthy
  | .last n => by
    rw [Conjunction.trees, Conjunction.value, allHold, allHold, Bool.and_true,
      Negation.holds_tree n]
  | .and n more => by
    rw [Conjunction.trees, Conjunction.value, allHold, Negation.holds_tree n,
      Conjunction.allHold_trees more]

theorem Conjunction.holds_tree : ∀ c : Conjunction, holds truthy c.tree = c.value truthy
  | .last n => by rw [Conjunction.tree, Conjunction.value, Negation.holds_tree n]
  | .and n more => by
    rw [Conjunction.tree, Conjunction.value, holds, allHold, Negation.holds_tree n,
      Conjunction.allHold_trees more]

theorem Disjunction.anyHolds_trees : ∀ d : Disjunction, anyHolds truthy d.trees = d.value truthy
  | .last c => by
    rw [Disjunction.trees, Disjunction.value, anyHolds, anyHolds, Bool.or_false,
      Conjunction.holds_tree c]
  | .or c more => by
    rw [Disjunction.trees, Disjunction.value, anyHolds, Conjunction.holds_tree c,
      Disjunction.anyHolds_trees more]

theorem Disjunction.holds_tree : ∀ d : Disjunction, holds truthy d.tree = d.value truthy
  | .last c => by rw [Disjunction.tree, Disjunction.value, Conjunction.holds_tree c]
  | .or c more => by
    rw [Disjunction.tree, Disjunction.value, holds, anyHolds, Conjunction.holds_tree c,
      Disjunction.anyHolds_trees more]

end

end

/-! ### What has been read at one level -/

/-- The conjunction of several operands. -/
def Conjunction.ofOperands (ns : List Negation) (n : Negation) : Conjunction :=
  ns.foldr .and (.last n)

/-- The disjunction of several operands. -/
def Disjunction.ofOperands (cs : List Conjunction) (c : Conjunction) : Disjunction :=
  cs.foldr .or (.last c)

/-- The tokens of operands of `and`, each with the `and` behind it. -/
def conjunctTokens (ns : List Negation) : List Token := ns.flatMap fun n => n.tokens ++ [.andOp]

/-- The tokens of operands of `or`, each with the `or` behind it. -/
def disjunctTokens (cs : List Conjunction) : List Token := cs.flatMap fun c => c.tokens ++ [.orOp]

theorem Conjunction.tokens_ofOperands (ns : List Negation) (n : Negation) :
    (ofOperands ns n).tokens = conjunctTokens ns ++ n.tokens := by
  induction ns with
  | nil => simp only [ofOperands, List.foldr, tokens, conjunctTokens, List.flatMap_nil,
      List.nil_append]
  | cons m ns ih =>
    rw [ofOperands, List.foldr_cons, tokens, ← ofOperands, ih, conjunctTokens, conjunctTokens,
      List.flatMap_cons, List.append_assoc, List.append_assoc, List.singleton_append]

theorem Conjunction.trees_ofOperands (ns : List Negation) (n : Negation) :
    (ofOperands ns n).trees = ns.map Negation.tree ++ [n.tree] := by
  induction ns with
  | nil => simp only [ofOperands, List.foldr, trees, List.map_nil, List.nil_append]
  | cons m ns ih =>
    rw [ofOperands, List.foldr_cons, trees, ← ofOperands, ih, List.map_cons, List.cons_append]

theorem Disjunction.tokens_ofOperands (cs : List Conjunction) (c : Conjunction) :
    (ofOperands cs c).tokens = disjunctTokens cs ++ c.tokens := by
  induction cs with
  | nil => simp only [ofOperands, List.foldr, tokens, disjunctTokens, List.flatMap_nil,
      List.nil_append]
  | cons d cs ih =>
    rw [ofOperands, List.foldr_cons, tokens, ← ofOperands, ih, disjunctTokens, disjunctTokens,
      List.flatMap_cons, List.append_assoc, List.append_assoc, List.singleton_append]

theorem Disjunction.trees_ofOperands (cs : List Conjunction) (c : Conjunction) :
    (ofOperands cs c).trees = cs.map Conjunction.tree ++ [c.tree] := by
  induction cs with
  | nil => simp only [ofOperands, List.foldr, trees, List.map_nil, List.nil_append]
  | cons d cs ih =>
    rw [ofOperands, List.foldr_cons, trees, ← ofOperands, ih, List.map_cons, List.cons_append]

namespace Level

/-- The level keeps the trees of the tokens `ts` that were read at it: of operands that are
complete, each with its operator, and where an operand is due of `not`s, and of one more operand
where none is. -/
inductive Keeps : (due : Bool) → List Token → Level → Prop where
  /-- An operand is due. -/
  | due (cs : List Conjunction) (ns : List Negation) (nots : Nat) :
      Keeps true (disjunctTokens cs ++ conjunctTokens ns ++ List.replicate nots .notOp)
        ⟨(cs.map Conjunction.tree).reverse, (ns.map Negation.tree).reverse, nots % 2 == 1⟩
  /-- An operand is complete. -/
  | complete (cs : List Conjunction) (ns : List Negation) (n : Negation) :
      Keeps false (disjunctTokens cs ++ conjunctTokens ns ++ n.tokens)
        ⟨(cs.map Conjunction.tree).reverse, n.tree :: (ns.map Negation.tree).reverse, false⟩

theorem keeps_empty : Keeps true [] empty := .due [] [] 0

variable {l : Level} {ts : List Token}

theorem Keeps.not (h : l.Keeps true ts) : l.not.Keeps true (ts ++ [.notOp]) := by
  cases h with
  | due cs ns nots =>
    have hodd : (!(nots % 2 == 1)) = ((nots + 1) % 2 == 1) := by
      obtain h | h := Nat.mod_two_eq_zero_or_one nots <;> simp [Nat.add_mod, h]
    rw [Level.not, hodd, List.append_assoc _ (List.replicate nots _), ← List.replicate_succ']
    exact .due cs ns (nots + 1)

theorem Keeps.operand (h : l.Keeps true ts) (a : Atom) :
    (l.operand a.tree).Keeps false (ts ++ a.tokens) := by
  cases h with
  | due cs ns nots =>
    have htree : negate (nots % 2 == 1) a.tree = (Negation.mk nots a).tree := by
      simp only [negate, Negation.tree, beq_iff_eq]
    rw [Level.operand, htree, List.append_assoc, ← Negation.tokens]
    exact .complete cs ns (.mk nots a)

theorem Keeps.and (h : l.Keeps false ts) : l.Keeps true (ts ++ [.andOp]) := by
  cases h with
  | complete cs ns n =>
    have := Keeps.due cs (ns ++ [n]) 0
    simpa [conjunctTokens, List.append_assoc] using this

/-- The operands of `and` that were read are one operand of `or`. -/
theorem Keeps.exists_conjunction (h : l.Keeps false ts) :
    ∃ cs c, ts = disjunctTokens cs ++ Conjunction.tokens c ∧
      l.disjunct = ⟨c.tree :: (cs.map Conjunction.tree).reverse, [], false⟩ := by
  cases h with
  | complete cs ns n =>
    refine ⟨cs, .ofOperands ns n, ?_, ?_⟩
    · rw [Conjunction.tokens_ofOperands, List.append_assoc]
    · rw [disjunct, ← Conjunction.combine_trees, Conjunction.trees_ofOperands, List.reverse_cons,
        List.reverse_reverse]

theorem Keeps.disjunct (h : l.Keeps false ts) : l.disjunct.Keeps true (ts ++ [.orOp]) := by
  obtain ⟨cs, c, rfl, hl⟩ := h.exists_conjunction
  have := Keeps.due (cs ++ [c]) [] 0
  rw [hl]
  simpa [disjunctTokens, conjunctTokens, List.append_assoc] using this

/-- **A level whose last operand is complete keeps the tree of a derivation.** -/
theorem Keeps.exists_disjunction (h : l.Keeps false ts) :
    ∃ d : Disjunction, d.tokens = ts ∧ d.tree = l.condition := by
  obtain ⟨cs, c, rfl, hl⟩ := h.exists_conjunction
  refine ⟨.ofOperands cs c, Disjunction.tokens_ofOperands cs c, ?_⟩
  rw [condition, hl, ← Disjunction.combine_trees, Disjunction.trees_ofOperands, List.reverse_cons,
    List.reverse_reverse]

end Level

/-- The levels that stand open, innermost first, keep what was read before the innermost opening
parenthesis and at it: `ts` are the tokens up to there. -/
inductive Opened : List Token → List Level → Prop where
  /-- No parenthesis is open. -/
  | nil : Opened [] []
  /-- One more is. -/
  | cons {ts us : List Token} {l : Level} {ls : List Level} (hl : l.Keeps true us)
      (hs : Opened ts ls) : Opened (ts ++ us ++ [.parenOpen]) (l :: ls)

/-! ### What is read has a derivation -/

/-- **What is read is the tree of a derivation.** -/
theorem exists_derivation_of_read {ending : Span} {levels : List Level} {level : Level} {due : Bool}
    {ts : List (Spanned Token)} {c : Condition} {us vs : List Token}
    (h : read ending levels level due ts = .ok c) (hs : Opened us levels)
    (hl : level.Keeps due vs) :
    ∃ d : Disjunction, d.tokens = us ++ vs ++ ts.map (·.node) ∧ d.tree = c := by
  fun_induction read ending levels level due ts generalizing us vs with
  | case1 | case3 | case7 | case10 | case12 => cases h
  | case2 level =>
    cases h
    cases hs
    simpa using hl.exists_disjunction
  | case4 levels level t ts name hname ih =>
    obtain ⟨a, ha, htree⟩ : ∃ a : Atom, a.tokens = [t.node] ∧ a.tree = param name := by
      unfold name? at hname
      split at hname
      · next hnode =>
        cases hname
        exact ⟨.var name, by rw [Atom.tokens, hnode], by rw [Atom.tree]⟩
      · next hnode =>
        cases hname
        exact ⟨.ident name, by rw [Atom.tokens, hnode], by rw [Atom.tree]⟩
      · cases hname
    have hnext := ih h hs (htree ▸ hl.operand a)
    rwa [ha, ← List.append_assoc us, List.append_assoc _ [t.node]] at hnext
  | case5 levels level t ts _ ht ih =>
    have hnext := ih h hs hl.not
    rwa [← ht, ← List.append_assoc us, List.append_assoc _ [t.node]] at hnext
  | case6 levels level t ts _ _ ht ih =>
    have hnext := ih h (.cons hl hs) Level.keeps_empty
    rwa [← ht, List.append_nil, List.append_assoc _ [t.node]] at hnext
  | case8 levels level t ts ht ih =>
    have hnext := ih h hs hl.and
    rwa [← ht, ← List.append_assoc us, List.append_assoc _ [t.node]] at hnext
  | case9 levels level t ts _ ht ih =>
    have hnext := ih h hs hl.disjunct
    rwa [← ht, ← List.append_assoc us, List.append_assoc _ [t.node]] at hnext
  | case11 level t ts _ _ outer levels ht ih =>
    cases hs with
    | @cons us' outerTokens _ _ ho hs =>
      obtain ⟨d, hd, htree⟩ := hl.exists_disjunction
      have hgroup : outer.operand level.condition = outer.operand (Atom.group d).tree := by
        rw [Atom.tree, htree]
      rw [hgroup] at ih h
      obtain ⟨e, he, hc⟩ := ih h hs (ho.operand (.group d))
      refine ⟨e, ?_, hc⟩
      rw [he, Atom.tokens, hd, List.map_cons, ht]
      simp only [List.append_assoc, List.cons_append, List.nil_append]

/-! ### What has a derivation is read -/

section

variable {ending : Span}

/-- Tokens that are made of two parts are the tokens of the one and those of the other. -/
theorem exists_append_of_map_node {ts : List (Spanned Token)} {us vs : List Token}
    (h : ts.map (·.node) = us ++ vs) :
    ∃ xs ys, ts = xs ++ ys ∧ xs.map (·.node) = us ∧ ys.map (·.node) = vs :=
  List.map_eq_append_iff.1 h

/-- Tokens whose first one is known. -/
theorem exists_cons_of_map_node {ts : List (Spanned Token)} {t : Token} {us : List Token}
    (h : ts.map (·.node) = t :: us) :
    ∃ span xs, ts = ⟨t, span⟩ :: xs ∧ xs.map (·.node) = us := by
  obtain ⟨⟨node, span⟩, xs, rfl, rfl, hxs⟩ := List.map_eq_cons_iff.1 h
  exact ⟨span, xs, rfl, hxs⟩

theorem read_nots {nots : Nat} {ts : List (Spanned Token)}
    (h : ts.map (·.node) = List.replicate nots .notOp) (levels : List Level)
    (ds ns : List Condition) (negated : Bool) (rest : List (Spanned Token)) :
    read ending levels ⟨ds, ns, negated⟩ true (ts ++ rest) =
      read ending levels ⟨ds, ns, Nat.repeat Bool.not nots negated⟩ true rest := by
  induction nots generalizing ts negated with
  | zero =>
    obtain rfl := List.map_eq_nil_iff.1 h
    rfl
  | succ n ih =>
    obtain ⟨span, xs, rfl, hxs⟩ := exists_cons_of_map_node h
    rw [List.cons_append, read_not, Level.not, ih hxs, repeat_not, repeat_not]
    obtain hn | hn := Nat.mod_two_eq_zero_or_one n
    · rw [if_neg (by omega), if_pos (by omega)]
    · rw [if_pos hn, if_neg (by omega), Bool.not_not]

mutual

theorem Atom.read_tokens : ∀ (a : Atom) {ts : List (Spanned Token)}, ts.map (·.node) = a.tokens →
    ∀ levels level rest, read ending levels level true (ts ++ rest) =
      read ending levels (level.operand a.tree) false rest
  | .var name, ts, h => by
    rw [Atom.tokens] at h
    obtain ⟨span, xs, rfl, hxs⟩ := exists_cons_of_map_node h
    obtain rfl := List.map_eq_nil_iff.1 hxs
    intro levels level rest
    rw [Atom.tree]
    exact read_name _ _ _ _ _ rfl
  | .ident name, ts, h => by
    rw [Atom.tokens] at h
    obtain ⟨span, xs, rfl, hxs⟩ := exists_cons_of_map_node h
    obtain rfl := List.map_eq_nil_iff.1 hxs
    intro levels level rest
    rw [Atom.tree]
    exact read_name _ _ _ _ _ rfl
  | .group c, ts, h => by
    rw [Atom.tokens] at h
    obtain ⟨span, xs, rfl, hxs⟩ := exists_cons_of_map_node h
    obtain ⟨inner, ys, rfl, hinner, hys⟩ := exists_append_of_map_node hxs
    obtain ⟨closing, zs, rfl, hzs⟩ := exists_cons_of_map_node hys
    obtain rfl := List.map_eq_nil_iff.1 hzs
    obtain ⟨l, hl, hread⟩ := Disjunction.read_tokens c hinner []
    have htree : l.condition = (Atom.group c).tree := by
      rw [Level.condition, hl, List.append_nil, List.reverse_reverse, c.combine_trees, Atom.tree]
    intro levels level rest
    rw [List.cons_append, List.append_assoc, read_open, Level.empty, hread, List.singleton_append,
      read_close, htree]

theorem Negation.read_tokens : ∀ (n : Negation) {ts : List (Spanned Token)},
    ts.map (·.node) = n.tokens → ∀ levels ds ns rest,
      read ending levels ⟨ds, ns, false⟩ true (ts ++ rest) =
        read ending levels ⟨ds, n.tree :: ns, false⟩ false rest
  | .mk nots a, ts, h => by
    rw [Negation.tokens] at h
    obtain ⟨xs, ys, rfl, hxs, hys⟩ := exists_append_of_map_node h
    intro levels ds ns rest
    have htree : negate (Nat.repeat Bool.not nots false) a.tree = (Negation.mk nots a).tree := by
      rw [repeat_not, negate, Negation.tree]
      split <;> rfl
    rw [List.append_assoc, read_nots hxs, Atom.read_tokens a hys, Level.operand, htree]

theorem Conjunction.read_tokens : ∀ (c : Conjunction) {ts : List (Spanned Token)},
    ts.map (·.node) = c.tokens → ∀ levels ds ns rest,
      read ending levels ⟨ds, ns, false⟩ true (ts ++ rest) =
        read ending levels ⟨ds, c.trees.reverse ++ ns, false⟩ false rest
  | .last n, ts, h => by
    rw [Conjunction.tokens] at h
    intro levels ds ns rest
    rw [Negation.read_tokens n h, Conjunction.trees, List.reverse_singleton, List.singleton_append]
  | .and n more, ts, h => by
    rw [Conjunction.tokens] at h
    obtain ⟨xs, ys, rfl, hxs, hys⟩ := exists_append_of_map_node h
    obtain ⟨span, zs, rfl, hzs⟩ := exists_cons_of_map_node hys
    intro levels ds ns rest
    rw [List.append_assoc, Negation.read_tokens n hxs, List.cons_append, read_and,
      Conjunction.read_tokens more hzs, Conjunction.trees, List.reverse_cons, List.append_assoc,
      List.singleton_append]

theorem Disjunction.read_tokens : ∀ (d : Disjunction) {ts : List (Spanned Token)},
    ts.map (·.node) = d.tokens → ∀ ds, ∃ l : Level,
      l.disjunct.disjuncts = d.trees.reverse ++ ds ∧ ∀ levels rest,
        read ending levels ⟨ds, [], false⟩ true (ts ++ rest) = read ending levels l false rest
  | .last c, ts, h => by
    rw [Disjunction.tokens] at h
    intro ds
    refine ⟨⟨ds, c.trees.reverse, false⟩, ?_, fun levels rest => ?_⟩
    · rw [Level.disjunct, List.reverse_reverse, c.combine_trees, Disjunction.trees,
        List.reverse_singleton, List.singleton_append]
    · rw [Conjunction.read_tokens c h, List.append_nil]
  | .or c more, ts, h => by
    rw [Disjunction.tokens] at h
    obtain ⟨xs, ys, rfl, hxs, hys⟩ := exists_append_of_map_node h
    obtain ⟨span, zs, rfl, hzs⟩ := exists_cons_of_map_node hys
    intro ds
    obtain ⟨l, hl, hread⟩ := Disjunction.read_tokens more hzs (c.tree :: ds)
    refine ⟨l, ?_, fun levels rest => ?_⟩
    · rw [hl, Disjunction.trees, List.reverse_cons, List.append_assoc, List.singleton_append]
    · rw [List.append_assoc, Conjunction.read_tokens c hxs, List.append_nil, List.cons_append,
        read_or, Level.disjunct, List.reverse_reverse, c.combine_trees, hread]

end

/-- **The tokens of a derivation are read as its tree.** -/
theorem read_derivation {d : Disjunction} {ts : List (Spanned Token)}
    (h : ts.map (·.node) = d.tokens) : read ending [] .empty true ts = .ok d.tree := by
  obtain ⟨l, hl, hread⟩ := d.read_tokens h []
  have hend := hread [] []
  rw [List.append_nil] at hend
  rw [Level.empty, hend, read_end, Level.condition, hl, List.append_nil, List.reverse_reverse,
    d.combine_trees]

end

/-! ### The limit on parentheses -/

/-- Parentheses nest at most `limit` deep: in no stretch of the tokens are there so many more that
open than that close. -/
def NestWithin (limit : Nat) (ts : List Token) : Prop :=
  ∀ us, us <:+: ts → us.count .parenOpen ≤ limit + us.count .parenClose

/-- Where `depth` parentheses are open, the tokens that follow never open more than `limit`. -/
def OpenWithin (limit depth : Nat) (ts : List Token) : Prop :=
  ∀ us, us <+: ts → depth + us.count .parenOpen ≤ limit + us.count .parenClose

variable {limit depth : Nat} {ts : List Token}

theorem OpenWithin.depth_le (h : OpenWithin limit depth ts) : depth ≤ limit := by
  simpa using h [] List.nil_prefix

theorem openWithin_cons_iff {t : Token} :
    OpenWithin limit depth (t :: ts) ↔ depth ≤ limit ∧ ∀ us, us <+: ts →
      depth + (t :: us).count .parenOpen ≤ limit + (t :: us).count .parenClose := by
  refine ⟨fun h => ⟨h.depth_le, fun us hus => h _ (List.cons_prefix_cons.2 ⟨rfl, hus⟩)⟩, ?_⟩
  rintro ⟨hd, h⟩ us hus
  obtain rfl | ⟨us, rfl, hus⟩ := List.prefix_cons_iff.1 hus
  · simpa using hd
  · exact h us (List.cons_prefix_cons.1 hus).2

theorem openWithin_open_iff :
    OpenWithin limit depth (.parenOpen :: ts) ↔ OpenWithin limit (depth + 1) ts := by
  rw [openWithin_cons_iff]
  refine ⟨fun h us hus => ?_, fun h => ⟨Nat.le_of_succ_le h.depth_le, fun us hus => ?_⟩⟩
  · have := h.2 us hus
    rw [List.count_cons_self, List.count_cons_of_ne (by simp)] at this
    omega
  · have := h us hus
    rw [List.count_cons_self, List.count_cons_of_ne (by simp)]
    omega

theorem openWithin_close_iff :
    OpenWithin limit (depth + 1) (.parenClose :: ts) ↔
      depth + 1 ≤ limit ∧ OpenWithin limit depth ts := by
  rw [openWithin_cons_iff]
  refine and_congr_right fun _ => forall₂_congr fun us _ => ?_
  rw [List.count_cons_self, List.count_cons_of_ne (by simp)]
  omega

theorem openWithin_other_iff {t : Token} (h : t ≠ .parenOpen ∧ t ≠ .parenClose) :
    OpenWithin limit depth (t :: ts) ↔ OpenWithin limit depth ts := by
  rw [openWithin_cons_iff]
  simp only [List.count_cons_of_ne h.1, List.count_cons_of_ne h.2]
  exact and_iff_right_of_imp OpenWithin.depth_le

/-- A closing parenthesis with none open changes nothing. -/
theorem OpenWithin.close (h : OpenWithin limit 0 ts) : OpenWithin limit 0 (.parenClose :: ts) := by
  refine openWithin_cons_iff.2 ⟨Nat.zero_le limit, fun us hus => ?_⟩
  have := h us hus
  rw [List.count_cons_self, List.count_cons_of_ne (by simp)]
  omega

theorem OpenWithin.anti {d : Nat} (h : OpenWithin limit depth ts) (hd : d ≤ depth) :
    OpenWithin limit d ts := fun us hus => Nat.le_trans (Nat.add_le_add_right hd _) (h us hus)

theorem NestWithin.openWithin (h : NestWithin limit ts) : OpenWithin limit 0 ts := fun us hus => by
  rw [Nat.zero_add]
  exact h us hus.isInfix

theorem nestWithin_cons_iff {t : Token} :
    NestWithin limit (t :: ts) ↔ OpenWithin limit 0 (t :: ts) ∧ NestWithin limit ts := by
  simp only [NestWithin, OpenWithin, List.infix_cons_iff, or_imp, forall_and, Nat.zero_add]

/-- No parenthesis is found too deep exactly if what follows nests deep enough nowhere, and does
not open too many more from where `depth` are open. -/
theorem firstTooDeep_eq_none_iff {limit depth : Nat} {ts : List (Spanned Token)}
    (hd : depth ≤ limit) :
    firstTooDeep limit depth ts = none ↔
      NestWithin limit (ts.map (·.node)) ∧ OpenWithin limit depth (ts.map (·.node)) := by
  induction ts generalizing depth with
  | nil => simp [firstTooDeep, NestWithin, OpenWithin, hd]
  | cons t ts ih =>
    obtain ⟨node, span⟩ := t
    rw [List.map_cons, nestWithin_cons_iff]
    by_cases ho : node = .parenOpen
    · subst ho
      rw [openWithin_open_iff, openWithin_open_iff, and_right_comm, firstTooDeep, if_pos rfl]
      split
      · next hlt => exact iff_of_false (by simp) fun h => Nat.not_le.2 hlt h.1.2.depth_le
      · next hle =>
        rw [ih (Nat.not_lt.1 hle)]
        exact ⟨fun h => ⟨⟨h.2.anti (Nat.le_add_left ..), h.2⟩, h.1⟩, fun h => ⟨h.2, h.1.2⟩⟩
    by_cases hc : node = .parenClose
    · subst hc
      cases depth with
      | zero =>
        rw [firstTooDeep, if_neg ho, if_pos rfl, ih hd]
        exact ⟨fun h => ⟨⟨h.2.close, h.1⟩, h.2.close⟩, fun h => ⟨h.1.2, h.1.2.openWithin⟩⟩
      | succ d =>
        rw [firstTooDeep_close, ih (Nat.le_of_succ_le hd), openWithin_close_iff]
        exact ⟨fun h => ⟨⟨h.1.openWithin.close, h.1⟩, hd, h.2⟩, fun h => ⟨h.1.2, h.2.2⟩⟩
    · rw [firstTooDeep_other span ts ⟨ho, hc⟩, ih hd, openWithin_other_iff ⟨ho, hc⟩,
        openWithin_other_iff ⟨ho, hc⟩]
      exact ⟨fun h => ⟨⟨h.1.openWithin, h.1⟩, h.2⟩, fun h => ⟨h.1.2, h.2⟩⟩

/-- **No parenthesis is found too deep exactly if the parentheses nest within the limit.** -/
theorem firstTooDeep_zero_eq_none_iff {ts : List (Spanned Token)} :
    firstTooDeep limit 0 ts = none ↔ NestWithin limit (ts.map (·.node)) := by
  rw [firstTooDeep_eq_none_iff (Nat.zero_le limit)]
  exact and_iff_left_of_imp NestWithin.openWithin

/-! ### Conditions are read by their grammar -/

theorem Disjunction.tokens_ne_nil (d : Disjunction) : d.tokens ≠ [] := by
  intro h
  have hread := @read_derivation ⟨0, 0⟩ d [] h.symm
  rw [read] at hread
  cases hread

/-- What the reader accepts, given that no parenthesis is too deep. -/
theorem read_eq_ok_iff {ending : Span} {ts : List (Spanned Token)} {c : Condition} :
    read ending [] .empty true ts = .ok c ↔
      ∃ d : Disjunction, d.tokens = ts.map (·.node) ∧ d.tree = c := by
  refine ⟨fun h => exists_derivation_of_read h .nil Level.keeps_empty, ?_⟩
  rintro ⟨d, hd, rfl⟩
  exact read_derivation hd.symm

/-- **Conditions are read exactly by their grammar, and mean what it says.** Of tokens whose
parentheses nest within the limit, a condition is read exactly if they have a derivation. It is
the tree of the derivation, over all the tokens, and whatever the parameters are, the tree has
the truth value of the derivation. -/
theorem parse_eq_ok_iff_derivation {limit : Nat} {keyword : Keyword} {head : Span} {closing : Nat}
    {args : List (Spanned Token)} (h : NestWithin limit (args.map (·.node))) :
    (∀ c, parse limit keyword head closing args = .ok c ↔
      ∃ d : Disjunction, d.tokens = args.map (·.node) ∧ c.node = d.tree ∧
        extent? args = some c.span) ∧
    ∀ d : Disjunction, d.tokens = args.map (·.node) → ∀ params : Params,
      d.tree.test params = d.value params.truthy := by
  refine ⟨fun c => ?_, fun d _ params => d.holds_tree params.truthy⟩
  obtain ⟨node, span⟩ := c
  unfold parse
  cases he : extent? args with
  | none =>
    cases args with
    | nil =>
      refine iff_of_false (by simp) ?_
      rintro ⟨d, hd, -⟩
      exact d.tokens_ne_nil hd
    | cons t ts => cases he
  | some extent =>
    simp only [firstTooDeep_zero_eq_none_iff.2 h, bind_eq_ok_iff, read_eq_ok_iff, pure]
    constructor
    · rintro ⟨c, ⟨d, hd, rfl⟩, hc⟩
      cases hc
      exact ⟨d, hd, rfl, rfl⟩
    · rintro ⟨d, hd, rfl, hspan⟩
      cases hspan
      exact ⟨d.tree, ⟨d, hd, rfl⟩, rfl⟩

/-- In `a or not not not (b and $c)`, three `not`s are one, and `and` stands inside it. -/
theorem parse_or_not_group :
    NestWithin 1 [.ident "a", .orOp, .notOp, .notOp, .notOp, .parenOpen, .ident "b", .andOp,
      .var "c", .parenClose] ∧
    parse 1 .ifK ⟨3, 5⟩ 34
      [⟨.ident "a", ⟨6, 7⟩⟩, ⟨.orOp, ⟨8, 10⟩⟩, ⟨.notOp, ⟨11, 14⟩⟩, ⟨.notOp, ⟨15, 18⟩⟩,
        ⟨.notOp, ⟨19, 22⟩⟩, ⟨.parenOpen, ⟨23, 24⟩⟩, ⟨.ident "b", ⟨24, 25⟩⟩, ⟨.andOp, ⟨26, 29⟩⟩,
        ⟨.var "c", ⟨30, 32⟩⟩, ⟨.parenClose, ⟨32, 33⟩⟩] =
      .ok ⟨.or [.param "a", .not (.and [.param "b", .param "c"])], ⟨6, 33⟩⟩ := by
  have hn := firstTooDeep_zero_eq_none_iff.1 (show firstTooDeep 1 0
    [⟨.ident "a", ⟨6, 7⟩⟩, ⟨.orOp, ⟨8, 10⟩⟩, ⟨.notOp, ⟨11, 14⟩⟩, ⟨.notOp, ⟨15, 18⟩⟩,
      ⟨.notOp, ⟨19, 22⟩⟩, ⟨.parenOpen, ⟨23, 24⟩⟩, ⟨.ident "b", ⟨24, 25⟩⟩, ⟨.andOp, ⟨26, 29⟩⟩,
      ⟨.var "c", ⟨30, 32⟩⟩, ⟨.parenClose, ⟨32, 33⟩⟩] = none by decide)
  refine ⟨hn, ((parse_eq_ok_iff_derivation hn).1 _).2 ⟨.or (.last (.mk 0 (.ident "a")))
    (.last (.last (.mk 3 (.group (.last (.and (.mk 0 (.ident "b")) (.last (.mk 0 (.var "c"))))))))),
    ?_, ?_, ?_⟩⟩ <;> cbv

end Condition

end Stencil
