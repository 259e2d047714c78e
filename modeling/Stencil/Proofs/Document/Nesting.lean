import Stencil.Proofs.Document.Blame

/-!
# Reading under a smaller limit

A template is read under a limit on how deep blocks and parentheses may nest. Under a smaller limit
it is read in the same way, token by token and item by item, until something nests too deep for the
smaller limit: so the result is the same, or that error (`parse_capped`). A block that is read
inside of more blocks has just as much less room (`reading_capped`).
-/

namespace Stencil

/-- The first result is that something nests deeper than `limit`, or it is the second result, and
this is not that anything nests too deep. -/
inductive Capped {α : Type} (limit : Nat) : Except ParseError α → Except ParseError α → Prop where
  /-- Both read the same. -/
  | ok (a : α) : Capped limit (.ok a) (.ok a)
  /-- Both have the same defect, which is no matter of depth. -/
  | error (e : ParseError) (h : ∀ n, e.cause ≠ .tooDeep n) : Capped limit (.error e) (.error e)
  /-- Something nests too deep for the first. -/
  | tooDeep (span : Span) (y : Except ParseError α) : Capped limit (.error ⟨.tooDeep limit, span⟩) y

namespace Capped

variable {α β : Type} {limit : Nat} {x y : Except ParseError α}

/-- Readers are capped if their first steps are, and what follows each value is. -/
theorem bind {k k' : α → Except ParseError β} (h : Capped limit x y)
    (hk : ∀ a, x = .ok a → Capped limit (k a) (k' a)) : Capped limit (x >>= k) (y >>= k') := by
  cases h with
  | ok a => exact hk a rfl
  | error e h => exact .error e h
  | tooDeep span y => exact .tooDeep span _

theorem map (f : α → β) (h : Capped limit x y) : Capped limit (f <$> x) (f <$> y) := by
  cases h with
  | ok a => exact .ok (f a)
  | error e h => exact .error e h
  | tooDeep span y => exact .tooDeep span _

/-- What is no matter of depth stays the same. -/
theorem refl (h : ∀ e, x = .error e → ∀ n, e.cause ≠ .tooDeep n) : Capped limit x x := by
  cases x with
  | ok a => exact .ok a
  | error e => exact .error e (h e rfl)

theorem eq_or_tooDeep (h : Capped limit x y) :
    x = y ∨ ∃ span, x = .error ⟨.tooDeep limit, span⟩ := by
  cases h with
  | ok a => exact .inl rfl
  | error e h => exact .inl rfl
  | tooDeep span y => exact .inr ⟨span, rfl⟩

end Capped

variable {m n : Nat}

/-! ### Tokens -/

/-- Nothing nests too deep for the scanner. -/
theorem Token.cause_ne_tooDeep_of_scanFrom (r : Region) (pos : Nat) (cs : List Char) :
    ∀ e, scanFrom r pos cs = .error e → ∀ n, e.cause ≠ .tooDeep n := by
  induction r, pos, cs using scan_induction with
  | rest pos cs hm =>
    intro e he
    rw [scanFrom_rest hm] at he
    cases he
  | opening pos cs before k rest hm ih =>
    intro e he
    rw [scanFrom_opening hm] at he
    split_ifs at he
    · exact ih e (map_eq_error_iff.1 he)
    · cases he
      exact nofun
  | nil k start pos =>
    intro e he
    rw [scanFrom_nil] at he
    cases he
    exact nofun
  | blank k start pos c cs hb ih =>
    rw [scanFrom_blank hb]
    exact ih
  | unknown k start pos c cs found hb hr =>
    intro e he
    rw [scanFrom_unknown hb hr] at he
    cases he
    exact nofun
  | token k start pos t text rest ht hend ih =>
    intro e he
    rw [scanFrom_token ht hend] at he
    exact ih e (map_eq_error_iff.1 he)

/-! ### Conditions -/

namespace Condition

/-- What is not too deep for a limit is not too deep for a larger one. -/
theorem firstTooDeep_eq_none_of_le (hmn : m ≤ n) {depth : Nat} {ts : List (Spanned Token)}
    (h : firstTooDeep m depth ts = none) : firstTooDeep n depth ts = none := by
  induction ts generalizing depth with
  | nil => rfl
  | cons t ts ih =>
    rw [firstTooDeep] at h ⊢
    split_ifs at h ⊢ with hopen hm hn hclose
    · omega
    · exact ih h
    · exact ih h
    · exact ih h

theorem parse_capped (hmn : m ≤ n) (keyword : Keyword) (head : Span) (closing : Nat)
    (args : List (Spanned Token)) :
    Capped m (parse m keyword head closing args) (parse n keyword head closing args) := by
  unfold parse
  cases extent? args with
  | none => exact .error _ nofun
  | some extent =>
    cases hm : firstTooDeep m 0 args with
    | some span => exact .tooDeep span _
    | none =>
      simp only [firstTooDeep_eq_none_of_le hmn hm]
      refine Capped.bind (.refl fun e he => ?_) fun c _ => .ok _
      obtain ⟨expected, rfl⟩ | ⟨t, -, expected, rfl⟩ := read_eq_error he
      · exact nofun
      · exact nofun

end Condition

/-! ### Items -/

namespace Item

theorem alone_capped (limit : Nat) (keyword : Keyword) (d : Directive)
    (args : List (Spanned Token)) : Capped limit (alone keyword d args) (alone keyword d args) := by
  unfold alone
  split
  · exact .ok d
  · exact .error _ nofun

theorem directive?_capped (hmn : m ≤ n) (full : Span) (inner : List (Spanned Token)) :
    Capped m (directive? m full inner) (directive? n full inner) := by
  cases inner with
  | nil => exact .error _ nofun
  | cons head args =>
    obtain ⟨t, span⟩ := head
    cases t with
    | keyword k =>
      cases k with
      | ifK => exact (Condition.parse_capped hmn ..).map _
      | elifK => exact (Condition.parse_capped hmn ..).map _
      | elseK => exact alone_capped ..
      | endifK => exact alone_capped ..
      | includeK =>
        rcases args with _ | ⟨⟨t, s⟩, _ | ⟨t', ts⟩⟩
        · exact .error _ nofun
        · cases t with
          | string path => exact .ok _
          | _ => exact .error _ nofun
        · cases t <;> exact .error _ nofun
    | _ => exact .error _ nofun

theorem construct?_capped (hmn : m ≤ n) (full : Span) (inner : List (Spanned Token))
    (k : Construct) : Capped m (construct? m full inner k) (construct? n full inner k) := by
  cases k with
  | directive => exact (directive?_capped hmn full inner).map _
  | interpolation =>
    rcases inner with _ | ⟨⟨t, span⟩, _ | ⟨t', ts⟩⟩
    · exact .error _ nofun
    · cases t with
      | var name => exact .ok _
      | _ => exact .error _ nofun
    · cases t <;> exact .error _ nofun

/-- **Tokens make the same items under a smaller limit**, or a condition nests too deep. -/
theorem ofTokens_capped (hmn : m ≤ n) {ts : List (Spanned Token)} (h : Token.Bracketed ts) :
    Capped m (ofTokens m ts) (ofTokens n ts) := by
  induction h with
  | nil =>
    rw [ofTokens_nil, ofTokens_nil]
    exact .ok []
  | text _ ih =>
    rw [ofTokens_text, ofTokens_text]
    exact ih.map _
  | construct hin _ _ ih =>
    rw [ofTokens_construct hin, ofTokens_construct hin]
    exact (construct?_capped hmn ..).bind fun item _ => ih.map _

end Item

/-! ### Blocks -/

namespace Document

/-- What follows the body of a branch, under a smaller limit. -/
theorem readAfter_capped {depth depth' : Nat} {opening : Span} {c : Spanned Condition} {b : Stretch}
    (helif : ∀ next span, b.terminator = some ⟨.elifT next, span⟩ →
      Capped m (readClauses m depth opening next b.rest) (readClauses n depth' opening next b.rest))
    (helse : ∀ span, b.terminator = some ⟨.elseT, span⟩ →
      Capped m (readBlock m depth b.rest) (readBlock n depth' b.rest)) :
    Capped m (readAfter m depth opening c b) (readAfter n depth' opening c b) := by
  obtain ⟨nodes, _ | ⟨next | _ | _, span⟩, rest⟩ := b
  · exact .error _ nofun
  · exact (helif next span rfl).map _
  · refine (helse span rfl).bind fun last _ => ?_
    obtain ⟨nodes', _ | ⟨_ | _ | _, span'⟩, rest'⟩ := last
    · exact .error _ nofun
    · exact .error _ nofun
    · exact .error _ nofun
    · exact .ok _
  · exact .ok _

/-- **Items make the same blocks where blocks have less room**, or a block nests too deep. -/
theorem reading_capped (m n : Nat) :
    (∀ depth items, ∀ depth', m - depth ≤ n - depth' →
      Capped m (readBlock m depth items) (readBlock n depth' items)) ∧
    ∀ depth opening c items, ∀ depth', m - depth ≤ n - depth' →
      Capped m (readClauses m depth opening c items) (readClauses n depth' opening c items) := by
  apply reading_induction m
  case nil =>
    intro depth depth' _
    rw [readBlock_nil, readBlock_nil]
    exact .ok _
  case node =>
    intro depth x node rest hx ih depth' hd
    rw [readBlock_node _ _ _ hx, readBlock_node _ _ _ hx]
    exact (ih depth' hd).map _
  case terminator =>
    intro depth x t rest hx depth' _
    rw [readBlock_terminator _ _ _ hx, readBlock_terminator _ _ _ hx]
    exact .ok _
  case opening =>
    intro depth span c rest ihc ihr depth' hd
    rw [readBlock_if, readBlock_if]
    by_cases hroom : m ≤ depth
    · rw [if_pos hroom]
      exact .tooDeep span _
    · rw [if_neg hroom, if_neg (by omega)]
      exact (ihc (depth' + 1) (by omega)).bind fun t ht => (ihr t ht depth' hd).map _
  case tooDeep =>
    intro depth span c rest hroom depth' _
    rw [readBlock_if, if_pos hroom]
    exact .tooDeep span _
  case clauses =>
    intro depth opening c items ih ihelif ihelse depth' hd
    rw [readClauses_eq, readClauses_eq]
    exact (ih depth' hd).bind fun b hb => readAfter_capped
      (fun next span ht => ihelif b next span hb ht depth' hd)
      fun span ht => ihelse b span hb ht depth' hd

theorem ofItems_capped (hmn : m ≤ n) (items : List (Spanned Item)) :
    Capped m (ofItems m items) (ofItems n items) := by
  rw [ofItems_eq, ofItems_eq]
  refine ((reading_capped m n).1 0 items 0 (Nat.sub_le_sub_right hmn 0)).bind fun b _ => ?_
  cases b.terminator with
  | none => exact .ok _
  | some t => exact .error _ nofun

/-- **A template is parsed the same under a smaller limit**, or something in it nests too deep. -/
theorem parse_capped (hmn : m ≤ n) (source : String) :
    Capped m (parse m source) (parse n source) := by
  rw [parse_eq, parse_eq]
  refine Capped.bind (.refl (Token.cause_ne_tooDeep_of_scanFrom _ _ _)) fun ts hts => ?_
  have hb := (Token.scanFrom_eq_ok_iff.1 hts).bracketed
  exact (Item.ofTokens_capped hmn hb).bind fun items _ => ofItems_capped hmn items

end Document

end Stencil
