import Stencil.Proofs.Condition.Continuation
import Stencil.Proofs.Document.Nesting

/-!
# The limit that a template needs

Every template that parses has two depths: that of its deepest `if` block, in the document, and
that of the deepest parentheses in any one of its conditions, which the document does not tell. It
parses exactly under the limits that are no less than both. Any other defect of a template is the
same under all limits under which nothing is too deep (`parse_threshold`).
-/

namespace Stencil

/-! ### Depths -/

namespace Condition

/-- How deep parentheses nest in some tokens: how many more open than close in what the tokens
begin with, at most. -/
def deepest (ts : List Token) : Nat :=
  ts.inits.toFinset.sup fun us => us.count .parenOpen - us.count .parenClose

theorem deepest_le_iff {limit : Nat} {ts : List Token} :
    deepest ts ≤ limit ↔ OpenWithin limit 0 ts := by
  simp only [deepest, Finset.sup_le_iff, List.mem_toFinset, List.mem_inits, OpenWithin]
  exact forall₂_congr fun us _ => by omega

end Condition

mutual

/-- How deep conditionals nest in a node, itself included. -/
def Node.depth : Node → Nat
  | .literal _ _ | .interpolation _ _ | .inclusion _ _ => 0
  | .conditional branches otherwise _ =>
    max (Branch.allDepth branches) (Node.lastDepth otherwise) + 1

/-- How deep conditionals nest in the body of a branch. -/
def Branch.depth : Branch → Nat
  | .mk _ _ body => Node.allDepth body

/-- How deep conditionals nest in the bodies of several branches. -/
def Branch.allDepth : List Branch → Nat
  | [] => 0
  | b :: bs => max b.depth (Branch.allDepth bs)

/-- How deep conditionals nest in a last part, if there is one. -/
def Node.lastDepth : Option (List Node) → Nat
  | none => 0
  | some body => Node.allDepth body

/-- How deep conditionals nest in several nodes. -/
def Node.allDepth : List Node → Nat
  | [] => 0
  | n :: ns => max n.depth (Node.allDepth ns)

end

/-- How deep conditionals nest in a document. -/
def Document.depth (d : Document) : Nat := Node.allDepth d.nodes

namespace Item

/-- The condition in a construct, as its tokens: what follows `if` or `elif`. -/
def condition? : Construct → List (Spanned Token) → Option (List Token)
  | .directive, ⟨.keyword .ifK, _⟩ :: args => some (args.map (·.node))
  | .directive, ⟨.keyword .elifK, _⟩ :: args => some (args.map (·.node))
  | _, _ => none

/-- The conditions in a token list, each as its tokens. -/
def conditions : List (Spanned Token) → List (List Token)
  | [] => []
  | t :: ts =>
    match opened? t.node with
    | none => conditions ts
    | some k =>
      let parts := untilClose k.closeToken t.span.stop ts
      (condition? k parts.1).toList ++ conditions parts.2.2
termination_by ts => ts.length
decreasing_by
  · simp
  · simpa [parts] using Nat.lt_succ_of_le (length_untilClose_le k.closeToken t.span.stop ts)

end Item

/-- How deep parentheses nest in any one condition of a template. A text that is no sequence of
tokens has no conditions. -/
def Document.parenDepth (source : String) : Nat :=
  match Token.scan source with
  | .ok ts => (Item.conditions ts).toFinset.sup Condition.deepest
  | .error _ => 0

/-! ### Results under a smaller limit -/

namespace Capped

variable {α β : Type} {limit : Nat} {x y : Except ParseError α} {a : α}

/-- What is read under the smaller limit is what is read under the larger one. -/
theorem eq_ok (h : Capped limit x y) (hy : y = .ok a) {b : α} (hx : x = .ok b) : b = a := by
  subst hx
  cases h
  exact Except.ok.inj hy

theorem bind_eq_ok_iff (h : Capped limit x y) (hy : y = .ok a) {k : α → Except ParseError β}
    {b : β} : (x >>= k) = .ok b ↔ x = .ok a ∧ k a = .ok b := by
  rw [Stencil.bind_eq_ok_iff]
  constructor
  · rintro ⟨a', ha, hk⟩
    obtain rfl := h.eq_ok hy ha
    exact ⟨ha, hk⟩
  · rintro ⟨ha, hk⟩
    exact ⟨a, ha, hk⟩

theorem map_eq_ok_iff (h : Capped limit x y) (hy : y = .ok a) (f : α → β) :
    f <$> x = .ok (f a) ↔ x = .ok a := by
  rw [Stencil.map_eq_ok_iff]
  constructor
  · rintro ⟨a', ha, -⟩
    obtain rfl := h.eq_ok hy ha
    exact ha
  · intro ha
    exact ⟨a, ha, rfl⟩

end Capped

variable {m n : Nat}

/-! ### Conditions -/

namespace Condition

/-- Tokens bring a point as much deeper as more parentheses open in them than close. -/
theorem Point.depth_after {p q : Point} {ts : List Token} (h : p.after ts = some q) :
    p.depth + ts.count .parenOpen = q.depth + ts.count .parenClose := by
  induction ts generalizing p with
  | nil =>
    cases h
    rfl
  | cons t ts ih =>
    obtain ⟨r, hr, h⟩ := Option.bind_eq_some_iff.1 h
    have hts := ih h
    have ht : p.depth + [t].count .parenOpen = r.depth + [t].count .parenClose := by
      unfold Point.next at hr
      split at hr <;> cases hr <;> simp
    rw [← List.singleton_append, List.count_append, List.count_append]
    omega

/-- No more parentheses close in a condition than were opened. -/
theorem Begins.count_close_le {ts : List Token} (h : Begins ts) :
    ts.count .parenClose ≤ ts.count .parenOpen := by
  obtain ⟨q, hq⟩ := begins_iff.1 h
  have := Point.depth_after hq
  simp only [Point.start] at this
  omega

/-- In a condition parentheses nest as deep as they are open at once. -/
theorem nestWithin_iff {limit : Nat} {ts : List Token} (h : Begins ts) :
    NestWithin limit ts ↔ deepest ts ≤ limit := by
  rw [deepest_le_iff]
  refine ⟨NestWithin.openWithin, ?_⟩
  rintro ho us ⟨before, after, rfl⟩
  -- what stands before a stretch of the condition closes no more than it opens
  have hb := (h.of_append.of_append).count_close_le
  have hus := ho (before ++ us) (List.prefix_append _ _)
  rw [List.count_append, List.count_append] at hus
  omega

theorem parse_eq_ok_iff {keyword : Keyword} {head : Span} {closing : Nat}
    {args : List (Spanned Token)} {c : Spanned Condition}
    (h : parse n keyword head closing args = .ok c) :
    parse m keyword head closing args = .ok c ↔ deepest (args.map (·.node)) ≤ m := by
  unfold parse at h ⊢
  cases he : extent? args with
  | none =>
    rw [he] at h
    cases h
  | some extent =>
    simp only [he] at h ⊢
    split at h
    · cases h
    obtain ⟨node, hr, -⟩ := bind_eq_ok_iff.1 h
    obtain ⟨d, hd, -⟩ := read_eq_ok_iff.1 hr
    have hcondition : IsCondition (args.map (·.node)) := ⟨d, hd⟩
    rw [← nestWithin_iff hcondition.begins, ← firstTooDeep_zero_eq_none_iff]
    cases firstTooDeep m 0 args with
    | none => exact iff_of_true h rfl
    | some span => simp

end Condition

/-! ### Items -/

namespace Item

theorem directive?_eq_ok_iff (hmn : m ≤ n) {full : Span} {inner : List (Spanned Token)}
    {d : Directive} (h : directive? n full inner = .ok d) :
    directive? m full inner = .ok d ↔
      ∀ c ∈ condition? .directive inner, Condition.deepest c ≤ m := by
  cases inner with
  | nil => cases h
  | cons head args =>
    obtain ⟨t, span⟩ := head
    have hcondition {k : Keyword} {f : Spanned Condition → Directive}
        (h : f <$> Condition.parse n k span (full.stop - Construct.markSize) args = .ok d) :
        f <$> Condition.parse m k span (full.stop - Construct.markSize) args = .ok d ↔
          ∀ c ∈ some (args.map (·.node)), Condition.deepest c ≤ m := by
      obtain ⟨c, hc, rfl⟩ := map_eq_ok_iff.1 h
      rw [(Condition.parse_capped hmn ..).map_eq_ok_iff hc, Condition.parse_eq_ok_iff hc]
      simp
    cases t with
    | keyword k =>
      cases k with
      | ifK => exact hcondition h
      | elifK => exact hcondition h
      | _ => exact iff_of_true h nofun
    | _ => cases h

theorem construct?_eq_ok_iff (hmn : m ≤ n) {full : Span} {inner : List (Spanned Token)}
    {k : Construct} {item : Item} (h : construct? n full inner k = .ok item) :
    construct? m full inner k = .ok item ↔ ∀ c ∈ condition? k inner, Condition.deepest c ≤ m := by
  cases k with
  | directive =>
    obtain ⟨d, hd, rfl⟩ := map_eq_ok_iff.1 h
    exact ((directive?_capped hmn full inner).map_eq_ok_iff hd _).trans
      (directive?_eq_ok_iff hmn hd)
  | interpolation => exact iff_of_true h nofun

theorem conditions_text (s : String) (span : Span) (ts : List (Spanned Token)) :
    conditions (⟨.text s, span⟩ :: ts) = conditions ts := by
  rw [conditions]
  rfl

theorem conditions_construct {k : Construct} {inner : List (Spanned Token)}
    (hi : ∀ t ∈ inner, Token.Inside k t.node) (opening closing : Span) (ts : List (Spanned Token)) :
    conditions (⟨k.openToken, opening⟩ :: (inner ++ ⟨k.closeToken, closing⟩ :: ts)) =
      (condition? k inner).toList ++ conditions ts := by
  have hu := untilClose_append (fun t ht => (hi t ht).1) closing opening.stop ts
  rw [conditions]
  cases k <;> simp only [Construct.openToken, opened?, hu]

/-- **Tokens make the same items exactly if parentheses nest deep enough in no condition.** -/
theorem ofTokens_eq_ok_iff (hmn : m ≤ n) {ts : List (Spanned Token)} (hb : Token.Bracketed ts)
    {items : List (Spanned Item)} (h : ofTokens n ts = .ok items) :
    ofTokens m ts = .ok items ↔ ∀ c ∈ conditions ts, Condition.deepest c ≤ m := by
  induction hb generalizing items with
  | nil =>
    rw [ofTokens_nil] at h ⊢
    exact iff_of_true h (by simp [conditions])
  | text hb ih =>
    rw [ofTokens_text] at h ⊢
    obtain ⟨more, hmore, rfl⟩ := map_eq_ok_iff.1 h
    rw [(ofTokens_capped hmn hb).map_eq_ok_iff hmore, conditions_text]
    exact ih hmore
  | @construct k opening closing inner ts hin _ hb ih =>
    rw [ofTokens_construct hin] at h ⊢
    obtain ⟨item, hitem, h⟩ := bind_eq_ok_iff.1 h
    obtain ⟨more, hmore, rfl⟩ := map_eq_ok_iff.1 h
    rw [(construct?_capped hmn _ inner k).bind_eq_ok_iff hitem,
      (ofTokens_capped hmn hb).map_eq_ok_iff hmore, construct?_eq_ok_iff hmn hitem, ih hmore,
      conditions_construct hin]
    simp only [List.mem_append, Option.mem_toList, Option.mem_def, or_imp, forall_and]

end Item

/-! ### Blocks -/

theorem Node.depth_of_nodeOf? {x : Spanned Item} {node : Node}
    (h : Document.nodeOf? x = some node) : node.depth = 0 := by
  unfold Document.nodeOf? at h
  split at h <;> cases h <;> rw [Node.depth]

namespace Document

/-- How deep conditionals nest in the clauses of a conditional. -/
def Clauses.depth (t : Clauses) : Nat :=
  max (Branch.allDepth t.branches) (Node.lastDepth t.otherwise)

theorem Clauses.depth_node (t : Clauses) (start : Nat) : (t.node start).depth = t.depth + 1 := by
  rw [Clauses.node, Node.depth, Clauses.depth]

theorem Clauses.depth_cons (c : Spanned Condition) (body : List Node) (t : Clauses) :
    (t.cons (.mk c.node c.span body)).depth = max (Node.allDepth body) t.depth := by
  simp only [Clauses.depth, Clauses.cons, Branch.allDepth, Branch.depth, Nat.max_assoc]

/-- What follows the body of a branch is read exactly if the clauses and blocks in it are. -/
theorem readAfter_eq_ok_iff (hmn : m ≤ n) {depth : Nat} {opening : Span} {c : Spanned Condition}
    {b : Stretch} {t : Clauses}
    (h : readAfter n depth opening c b = .ok t)
    (helif : ∀ next span, b.terminator = some ⟨.elifT next, span⟩ →
      ∀ t, readClauses n depth opening next b.rest = .ok t →
        (readClauses m depth opening next b.rest = .ok t ↔ depth + t.depth ≤ m))
    (helse : ∀ span, b.terminator = some ⟨.elseT, span⟩ →
      ∀ last, readBlock n depth b.rest = .ok last →
        (readBlock m depth b.rest = .ok last ↔ depth + Node.allDepth last.nodes ≤ m)) :
    depth + Node.allDepth b.nodes ≤ m ∧ readAfter m depth opening c b = .ok t ↔
      depth + t.depth ≤ m := by
  have hcap := reading_capped m n
  have hroom : m - depth ≤ n - depth := Nat.sub_le_sub_right hmn depth
  obtain ⟨nodes, _ | ⟨next | _ | _, span⟩, rest⟩ := b
  · cases h
  · obtain ⟨tail, ht, rfl⟩ := map_eq_ok_iff.1 h
    have hm := (hcap.2 depth opening next rest depth hroom).map_eq_ok_iff ht
      (Clauses.cons (.mk c.node c.span nodes))
    rw [Clauses.depth_cons, show readAfter m depth opening c ⟨nodes, some ⟨.elifT next, span⟩, rest⟩ =
      Clauses.cons (.mk c.node c.span nodes) <$> readClauses m depth opening next rest from rfl, hm,
      helif next span rfl tail ht]
    omega
  · obtain ⟨last, hl, hlast⟩ := bind_eq_ok_iff.1 h
    have hm := helse span rfl last hl
    rw [readAfter, (hcap.1 depth rest depth hroom).bind_eq_ok_iff hl, hm]
    obtain ⟨nodes', _ | ⟨_ | _ | _, span'⟩, rest'⟩ := last
    case some.endifT =>
      cases hlast
      simp only [Clauses.depth, Branch.allDepth, Branch.depth, Node.lastDepth, and_true]
      omega
    all_goals cases hlast
  · cases h
    simp only [readAfter, Clauses.depth, Branch.allDepth, Branch.depth, Node.lastDepth, and_true]
    omega

/-- **Blocks and clauses are read alike under every limit that leaves room for the conditionals in
them.** -/
theorem reading_eq_ok_iff (hmn : m ≤ n) :
    (∀ depth items, depth ≤ m → ∀ b, readBlock n depth items = .ok b →
      (readBlock m depth items = .ok b ↔ depth + Node.allDepth b.nodes ≤ m)) ∧
    ∀ depth opening c items, depth ≤ m → ∀ t, readClauses n depth opening c items = .ok t →
      (readClauses m depth opening c items = .ok t ↔ depth + t.depth ≤ m) := by
  have hcap := reading_capped m n
  have hroom (depth) : m - depth ≤ n - depth := Nat.sub_le_sub_right hmn depth
  apply reading_induction n
  case nil =>
    intro depth hd b hb
    rw [readBlock_nil] at hb ⊢
    cases hb
    exact iff_of_true rfl hd
  case node =>
    intro depth x node rest hx ih hd b hb
    rw [readBlock_node _ _ _ hx] at hb ⊢
    obtain ⟨b, hb', rfl⟩ := map_eq_ok_iff.1 hb
    rw [(hcap.1 depth rest depth (hroom depth)).map_eq_ok_iff hb', ih hd b hb', Stretch.cons,
      Node.allDepth, Node.depth_of_nodeOf? hx, Nat.zero_max]
  case terminator =>
    intro depth x t rest hx hd b hb
    rw [readBlock_terminator _ _ _ hx] at hb ⊢
    cases hb
    exact iff_of_true rfl hd
  case opening =>
    intro depth span c rest ihc ihr hd b hb
    rw [readBlock_if] at hb ⊢
    split_ifs at hb with hn
    obtain ⟨t, ht, hb⟩ := bind_eq_ok_iff.1 hb
    obtain ⟨b, hb', rfl⟩ := map_eq_ok_iff.1 hb
    rw [Stretch.cons, Node.allDepth, Clauses.depth_node]
    by_cases hm : m ≤ depth
    · -- no room for the conditional
      rw [if_pos hm]
      exact iff_of_false (fun h => by cases h) (by omega)
    · rw [if_neg hm, (hcap.2 _ span c rest _ (hroom _)).bind_eq_ok_iff ht,
        ← Stretch.cons, (hcap.1 _ t.rest _ (hroom _)).map_eq_ok_iff hb', ihc (by omega) t ht,
        ihr t ht hd b hb']
      omega
  case tooDeep =>
    intro depth span c rest hn hd b hb
    rw [readBlock_if, if_pos hn] at hb
    cases hb
  case clauses =>
    intro depth opening c items ih ihelif ihelse hd t ht
    rw [readClauses_eq] at ht ⊢
    obtain ⟨b, hb, ht⟩ := bind_eq_ok_iff.1 ht
    rw [(hcap.1 depth items depth (hroom depth)).bind_eq_ok_iff hb, ih hd b hb]
    exact readAfter_eq_ok_iff hmn ht (fun next span h => ihelif b next span hb h hd)
      fun span h => ihelse b span hb h hd

theorem ofItems_eq_ok_iff (hmn : m ≤ n) {items : List (Spanned Item)} {d : Document}
    (h : ofItems n items = .ok d) : ofItems m items = .ok d ↔ d.depth ≤ m := by
  rw [ofItems_eq] at h ⊢
  obtain ⟨b, hb, h⟩ := bind_eq_ok_iff.1 h
  have hcap := (reading_capped m n).1 0 items 0 (Nat.sub_le_sub_right hmn 0)
  rw [hcap.bind_eq_ok_iff hb, (reading_eq_ok_iff hmn).1 0 items (Nat.zero_le m) b hb]
  cases ht : b.terminator with
  | some t =>
    rw [ht] at h
    cases h
  | none =>
    rw [ht] at h
    cases h
    simp [depth]

/-! ### Templates -/

/-- What parses is too deep for no part of it that a smaller limit leaves room for. -/
theorem parse_eq_ok_iff (hmn : m ≤ n) {source : String} {d : Document}
    (h : parse n source = .ok d) :
    parse m source = .ok d ↔ d.depth ≤ m ∧ parenDepth source ≤ m := by
  rw [parse_eq] at h
  obtain ⟨ts, hts, h⟩ := bind_eq_ok_iff.1 h
  obtain ⟨items, hitems, hd⟩ := bind_eq_ok_iff.1 h
  have hb := (Token.scanFrom_eq_ok_iff.1 hts).bracketed
  have hparen : parenDepth source ≤ m ↔ ∀ c ∈ Item.conditions ts, Condition.deepest c ≤ m := by
    rw [parenDepth, show Token.scan source = .ok ts from hts]
    simp only [Finset.sup_le_iff, List.mem_toFinset]
  calc parse m source = .ok d
      ↔ Item.ofTokens m ts >>= ofItems m = .ok d := by rw [parse_eq, hts]; rfl
    _ ↔ Item.ofTokens m ts = .ok items ∧ ofItems m items = .ok d :=
        (Item.ofTokens_capped hmn hb).bind_eq_ok_iff hitems
    _ ↔ parenDepth source ≤ m ∧ d.depth ≤ m := by
        rw [Item.ofTokens_eq_ok_iff hmn hb hitems, ofItems_eq_ok_iff hmn hd, hparen]
    _ ↔ d.depth ≤ m ∧ parenDepth source ≤ m := and_comm

/-- The template is refused because something in it nests deeper than `limit`. -/
def TooDeep (limit : Nat) (result : Except ParseError Document) : Prop :=
  ∃ span, result = .error ⟨.tooDeep limit, span⟩

/-- What is too deep for the larger limit is too deep for the smaller one. -/
theorem TooDeep.of_capped {k : Nat} {x y : Except ParseError Document} (h : Capped m x y)
    (hy : TooDeep k y) : TooDeep m x := by
  obtain ⟨span, rfl⟩ := hy
  cases h with
  | error _ h => exact absurd rfl (h k)
  | tooDeep span _ => exact ⟨span, rfl⟩

/-- **A limit only refuses what is too deep for it.** Under a smaller limit a template is parsed as
under a larger one, or it is too deep for the smaller limit, and this it is if it is too deep for
the larger one. A template that parses does so under every limit that is no less than the depth of
its blocks and that of the parentheses in its conditions, and under no other. -/
theorem parse_threshold (hmn : m ≤ n) (source : String) :
    (parse m source = parse n source ∨ TooDeep m (parse m source)) ∧
      (∀ k, TooDeep k (parse n source) → TooDeep m (parse m source)) ∧
      ∀ d, parse n source = .ok d →
        ((∃ d', parse m source = .ok d') ↔ d.depth ≤ m ∧ parenDepth source ≤ m) := by
  have hcap := parse_capped hmn source
  refine ⟨hcap.eq_or_tooDeep, fun k hk => hk.of_capped hcap, fun d hd => ?_⟩
  rw [← parse_eq_ok_iff hmn hd]
  constructor
  · rintro ⟨d', hd'⟩
    obtain rfl := hcap.eq_ok hd hd'
    exact hd'
  · intro h
    exact ⟨d, h⟩

set_option maxRecDepth 4000 in
/-- Parentheses side by side are no deeper than one of them: this template has the depths 2 and 1.
It parses under the limit 2, is too deep for 1, and so it is for 0. -/
theorem parse_threshold_siblings :
    let source := "[%if($a)or($b)%][%if $c%][%endif%][%endif%]"
    2 ≤ 3 ∧ 1 ≤ 3 ∧ 0 ≤ 1 ∧ (∃ d, parse 3 source = .ok d ∧ d.depth = 2) ∧ parenDepth source = 1 ∧
      (∃ d, parse 2 source = .ok d) ∧ TooDeep 1 (parse 1 source) ∧
      TooDeep 0 (parse 0 source) := by
  intro source
  have htwo : 2 ≤ 3 := by decide
  have hone : 1 ≤ 3 := by decide
  have hdepth : depth <$> parse 3 source = .ok 2 := by cbv
  have hconditions : Item.conditions <$> Token.scan source =
      .ok [[.parenOpen, .var "a", .parenClose, .orOp, .parenOpen, .var "b", .parenClose],
        [.var "c"]] := by cbv
  have hparen : parenDepth source = 1 := by
    obtain ⟨ts, hts, hconditions⟩ := map_eq_ok_iff.1 hconditions
    rw [parenDepth, hts]
    simp only [hconditions]
    decide
  obtain ⟨d, hd, hdepth⟩ := map_eq_ok_iff.1 hdepth
  have hdeep : TooDeep 1 (parse 1 source) := by
    obtain ⟨hsame | hdeep, -, hiff⟩ := parse_threshold hone source
    · have hle := (hiff d hd).1 ⟨d, hsame.trans hd⟩
      rw [hdepth] at hle
      exact absurd hle.1 (by decide)
    · exact hdeep
  refine ⟨htwo, hone, Nat.zero_le 1, ⟨d, hd, hdepth⟩, hparen, ?_, hdeep, ?_⟩
  · rw [(parse_threshold htwo source).2.2 d hd, hdepth, hparen]
    decide
  · exact (parse_threshold (Nat.zero_le 1) source).2.1 1 hdeep

end Document

end Stencil
