import Stencil.Proofs.Condition.Steps
import Stencil.Proofs.Printing

/-!
# Reading a printed condition

The tokens of a condition, read at a level where nothing has been read, leave a level that says
this condition and nothing else. An operand in parentheses is therefore one operand of the level
outside them, whatever is in it (`Reads.operand`), and parentheses are open again as many as
before it.
-/

namespace Stencil

namespace Condition

/-! ### One condition -/

/-- Tokens that are read as the condition `c` where nothing has been read. -/
def Reads (ts : List Token) (c : Condition) : Prop :=
  ∃ l : Level, l.condition = c ∧ ∀ ending levels rest,
    read ending levels .empty true (ts.map Spanned.bare ++ rest) = read ending levels l false rest

/-- Tokens that are read as the operand `c` where one is due. -/
def ReadsOperand (ts : List Token) (c : Condition) : Prop :=
  ∀ ending levels level rest,
    read ending levels level true (ts.map Spanned.bare ++ rest) =
      read ending levels (level.operand c) false rest

theorem readsOperand_param (name : String) : ReadsOperand [.var name] (.param name) :=
  fun _ _ _ _ => read_name _ _ _ _ _ rfl

theorem Reads.enclosed {ts : List Token} {c : Condition} (h : Reads ts c) :
    ReadsOperand (.parenOpen :: (ts ++ [.parenClose])) c := by
  obtain ⟨l, rfl, h⟩ := h
  intro ending levels level rest
  have := h ending (level :: levels) (.bare .parenClose :: rest)
  simp only [List.map_cons, List.map_append, List.map_nil, List.cons_append, List.append_assoc,
    List.nil_append]
  exact (read_open ..).trans (this.trans (read_close ..))

/-- What reads as a condition reads as an operand once it is wrapped. -/
theorem Reads.operand {c : Condition} (h : Reads c.tokens c) :
    ReadsOperand (wrap c c.tokens) c := by
  cases c with
  | param name => exact readsOperand_param name
  | _ => exact h.enclosed

/-! ### Many operands -/

theorem read_conjuncts {cs : List Condition} (h : ∀ c ∈ cs, ReadsOperand (wrap c c.tokens) c)
    (ending : Span) (levels : List Level) (ds acc : List Condition) (rest : List (Spanned Token)) :
    read ending levels ⟨ds, acc, false⟩ false ((operandTokens .andOp cs).map Spanned.bare ++ rest) =
      read ending levels ⟨ds, cs.reverse ++ acc, false⟩ false rest := by
  induction cs generalizing acc with
  | nil => rfl
  | cons c cs ih =>
    simp only [operandTokens, List.map_cons, List.map_append, List.cons_append, List.append_assoc,
      List.reverse_cons, List.nil_append]
    refine (read_and ..).trans ?_
    rw [h c List.mem_cons_self]
    exact ih (fun c hc => h c (List.mem_cons_of_mem _ hc)) (c :: acc)

/-- Operands of `or` are finished one after the other, and the last one is still being read. -/
theorem read_disjuncts {cs : List Condition} (h : ∀ c ∈ cs, ReadsOperand (wrap c c.tokens) c)
    (ds : List Condition) (a : Condition) :
    ∃ ds' a', a' :: ds' = cs.reverse ++ a :: ds ∧ ∀ ending levels rest,
      read ending levels ⟨ds, [a], false⟩ false
          ((operandTokens .orOp cs).map Spanned.bare ++ rest) =
        read ending levels ⟨ds', [a'], false⟩ false rest := by
  induction cs generalizing ds a with
  | nil => exact ⟨ds, a, rfl, fun _ _ _ => rfl⟩
  | cons c cs ih =>
    obtain ⟨ds', a', heq, hread⟩ := ih (fun c hc => h c (List.mem_cons_of_mem _ hc)) (a :: ds) c
    refine ⟨ds', a', by simpa using heq, fun ending levels rest => ?_⟩
    simp only [operandTokens, List.map_cons, List.map_append, List.cons_append, List.append_assoc]
    refine (read_or ..).trans ?_
    rw [h c List.mem_cons_self]
    exact hread ending levels rest

theorem combine_of_length {join : List Condition → Condition} {cs : List Condition}
    (h : 2 ≤ cs.length) :
    combine join cs = join cs := by
  match cs, h with
  | _ :: _ :: _, _ => rfl

theorem reads_tokens {c : Condition} (h : c.Formed) : Reads c.tokens c := by
  induction h with
  | @param name _ =>
    exact ⟨Level.empty.operand (.param name), rfl, fun ending levels =>
      readsOperand_param name ending levels .empty⟩
  | @not c _ ih =>
    refine ⟨Level.empty.not.operand c, rfl, fun ending levels rest => ?_⟩
    exact (read_not ..).trans (ih.operand ending levels Level.empty.not rest)
  | @and cs hl _ ih =>
    have ho : ∀ c ∈ cs, ReadsOperand (wrap c c.tokens) c := fun c hc => (ih c hc).operand
    cases cs with
    | nil => simp at hl
    | cons c cs =>
      refine ⟨⟨[], cs.reverse ++ [c], false⟩, ?_, fun ending levels rest => ?_⟩
      · have hcs : (cs.reverse ++ [c]).reverse = c :: cs := by simp
        simp only [Level.condition, Level.disjunct, hcs, combine_of_length hl]
        rfl
      · simp only [tokens, operandTokens, List.tail_cons, List.map_append, List.append_assoc]
        rw [ho c List.mem_cons_self]
        exact read_conjuncts (fun c hc => ho c (List.mem_cons_of_mem _ hc)) ending
          levels [] [c] rest
  | @or cs hl _ ih =>
    have ho : ∀ c ∈ cs, ReadsOperand (wrap c c.tokens) c := fun c hc => (ih c hc).operand
    cases cs with
    | nil => simp at hl
    | cons c cs =>
      obtain ⟨ds, a, heq, hread⟩ := read_disjuncts
        (fun c hc => ho c (List.mem_cons_of_mem _ hc)) [] c
      refine ⟨⟨ds, [a], false⟩, ?_, fun ending levels rest => ?_⟩
      · have hcs : (a :: ds).reverse = c :: cs := by simp [heq]
        simp only [Level.condition, Level.disjunct, List.reverse_singleton, combine, hcs]
        exact combine_of_length hl
      · simp only [tokens, operandTokens, List.tail_cons, List.map_append, List.append_assoc]
        rw [ho c List.mem_cons_self]
        exact hread ending levels rest

/-! ### The limit on parentheses -/

theorem firstTooDeep_wrap {limit : Nat} {c : Condition}
    (h : ∀ depth rest, depth + c.parenDepth ≤ limit →
      firstTooDeep limit depth (c.tokens.map Spanned.bare ++ rest) = firstTooDeep limit depth rest)
    {depth : Nat} (hd : depth + wrapDepth c c.parenDepth ≤ limit) (rest : List (Spanned Token)) :
    firstTooDeep limit depth ((wrap c c.tokens).map Spanned.bare ++ rest) =
      firstTooDeep limit depth rest := by
  have henclosed : depth + (c.parenDepth + 1) ≤ limit →
      firstTooDeep limit depth
          ((.parenOpen :: (c.tokens ++ [.parenClose])).map Spanned.bare ++ rest) =
        firstTooDeep limit depth rest := by
    intro hd
    have := h (depth + 1) (.bare .parenClose :: rest) (by omega)
    simp only [List.map_cons, List.map_append, List.map_nil, List.cons_append, List.append_assoc,
      List.nil_append]
    exact (firstTooDeep_open _ _ (by omega)).trans (this.trans (firstTooDeep_close ..))
  cases c with
  | param name => exact h depth rest hd
  | _ => exact henclosed hd

theorem firstTooDeep_operands {limit : Nat} {op : Token} (hop : op ≠ .parenOpen ∧ op ≠ .parenClose)
    {cs : List Condition}
    (h : ∀ c ∈ cs, ∀ depth rest, depth + wrapDepth c c.parenDepth ≤ limit →
      firstTooDeep limit depth ((wrap c c.tokens).map Spanned.bare ++ rest) =
        firstTooDeep limit depth rest)
    {depth : Nat} (hd : depth + operandDepth cs ≤ limit) (rest : List (Spanned Token)) :
    firstTooDeep limit depth ((operandTokens op cs).map Spanned.bare ++ rest) =
      firstTooDeep limit depth rest := by
  induction cs with
  | nil => rfl
  | cons c cs ih =>
    rw [operandDepth] at hd
    simp only [operandTokens, List.map_cons, List.map_append, List.cons_append, List.append_assoc]
    refine (firstTooDeep_other _ _ hop limit depth).trans ?_
    rw [h c List.mem_cons_self _ _ (by omega)]
    exact ih (fun c hc => h c (List.mem_cons_of_mem _ hc)) (by omega)

theorem firstTooDeep_tokens {limit : Nat} {c : Condition} (h : c.Formed) (depth : Nat)
    (rest : List (Spanned Token)) (hd : depth + c.parenDepth ≤ limit) :
    firstTooDeep limit depth (c.tokens.map Spanned.bare ++ rest) =
      firstTooDeep limit depth rest := by
  induction h generalizing depth rest with
  | param _ => rfl
  | @not c _ ih => exact firstTooDeep_wrap ih hd rest
  | @and cs hl _ ih | @or cs hl _ ih =>
    have ho : ∀ c ∈ cs, ∀ depth rest, depth + wrapDepth c c.parenDepth ≤ limit →
        firstTooDeep limit depth ((wrap c c.tokens).map Spanned.bare ++ rest) =
          firstTooDeep limit depth rest :=
      fun c hc _ _ hd => firstTooDeep_wrap (ih c hc) hd _
    rw [parenDepth] at hd
    cases cs with
    | nil => rfl
    | cons c cs =>
      rw [operandDepth] at hd
      simp only [tokens, operandTokens, List.tail_cons, List.map_append, List.append_assoc]
      rw [ho c List.mem_cons_self _ _ (by omega)]
      exact firstTooDeep_operands (by decide) (fun c hc => ho c (List.mem_cons_of_mem _ hc))
        (by omega) rest

/-! ### The condition of a directive -/

theorem extent?_bare {ts : List Token} (h : ts ≠ []) :
    extent? (ts.map Spanned.bare) = some ⟨0, 0⟩ := by
  cases ts with
  | nil => exact absurd rfl h
  | cons t ts =>
    have hl : ((t :: ts).map Spanned.bare).getLast (by simp) =
        Spanned.bare ((t :: ts).getLast (by simp)) :=
      List.getLast_map _
    exact congrArg (fun x : Spanned Token => some (Span.mk 0 x.span.stop)) hl

theorem tokens_ne_nil {c : Condition} (h : c.Formed) : c.tokens ≠ [] := by
  cases h with
  | param _ => simp [tokens]
  | not _ => simp [tokens]
  | @and cs hl _ | @or cs hl _ =>
    match cs, hl with
    | _ :: _ :: _, _ => simp [tokens, operandTokens]

/-- **A printed condition is parsed as itself.** -/
theorem parse_tokens {limit : Nat} {c : Condition} (h : c.Formed) (hd : c.parenDepth ≤ limit)
    (k : Keyword) (head : Span) (closing : Nat) :
    parse limit k head closing (c.tokens.map Spanned.bare) = .ok (.bare c) := by
  have hdeep := firstTooDeep_tokens h 0 [] (by omega : 0 + c.parenDepth ≤ limit)
  obtain ⟨l, rfl, hread⟩ := reads_tokens h
  have hread := hread ⟨closing, 0⟩ [] []
  rw [List.append_nil] at hdeep hread
  rw [parse, extent?_bare (tokens_ne_nil h), hdeep]
  simp only [hread, firstTooDeep, read_end]
  rfl

end Condition

end Stencil
