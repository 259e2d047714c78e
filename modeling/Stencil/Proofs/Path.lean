import Stencil.Include.Path
import Stencil.Proofs.Unicode.Utf8

/-!
# Pieces of paths

The pieces of a path have no slash in them, and names that have none are the pieces of the path
that joins them (`pieces_join`). A text and its bytes have the same pieces (`pieces_encode`). The
components that an include path resolves to are such names, and none of them is `..`
(`parts_of_resolve`).
-/

namespace Stencil

namespace Path

section

variable {α : Type} [Letter α]

theorem join_cons_cons (p q : List α) (ps : List (List α)) :
    join (p :: q :: ps) = p ++ Letter.slash :: join (q :: ps) := rfl

theorem join_append {ps qs : List (List α)} (hp : ps ≠ []) (hq : qs ≠ []) :
    join (ps ++ qs) = join ps ++ Letter.slash :: join qs := by
  induction ps with
  | nil => exact absurd rfl hp
  | cons p ps ih =>
    cases ps with
    | nil =>
      rw [List.singleton_append, join, join]
      exact hq
    | cons p' ps =>
      have hrest := ih (List.cons_ne_nil p' ps)
      rw [List.cons_append] at hrest
      rw [List.cons_append, List.cons_append, join_cons_cons, hrest, join_cons_cons,
        List.append_assoc, List.cons_append]

theorem notMem_join {c : α} {ps : List (List α)} (hc : c ≠ Letter.slash) (h : ∀ p ∈ ps, c ∉ p) :
    c ∉ join ps := by
  induction ps with
  | nil => exact List.not_mem_nil
  | cons p ps ih =>
    obtain ⟨hp, hps⟩ := List.forall_mem_cons.1 h
    cases ps with
    | nil => exact hp
    | cons q qs =>
      rw [join_cons_cons, List.mem_append, List.mem_cons, not_or, not_or]
      exact ⟨hp, hc, ih hps⟩

variable [DecidableEq α]

theorem pieces_cons_of_ne {c : α} (h : c ≠ Letter.slash) (cs : List α) :
    ∃ p ps, pieces cs = p :: ps ∧ pieces (c :: cs) = (c :: p) :: ps := by
  cases hp : pieces cs with
  | nil => exact absurd hp (pieces_ne_nil cs)
  | cons p ps => exact ⟨p, ps, rfl, by rw [pieces, if_neg h, hp]⟩

theorem slash_notMem_of_mem_pieces {cs : List α} {p : List α} (h : p ∈ pieces cs) :
    Letter.slash ∉ p := by
  induction cs generalizing p with
  | nil =>
    rw [List.mem_singleton.1 h]
    exact List.not_mem_nil
  | cons c cs ih =>
    by_cases hc : c = Letter.slash
    · rw [pieces, if_pos hc, List.mem_cons] at h
      rcases h with rfl | h
      · exact List.not_mem_nil
      · exact ih h
    · obtain ⟨q, qs, hq, hcs⟩ := pieces_cons_of_ne hc cs
      rw [hcs, List.mem_cons] at h
      rcases h with rfl | h
      · rw [List.mem_cons, not_or]
        exact ⟨fun hs => hc hs.symm, ih (hq ▸ List.mem_cons_self)⟩
      · exact ih (hq ▸ List.mem_cons_of_mem _ h)

theorem pieces_append {p : List α} (h : Letter.slash ∉ p) (cs : List α) :
    pieces (p ++ Letter.slash :: cs) = p :: pieces cs := by
  induction p with
  | nil => rw [List.nil_append, pieces, if_pos rfl]
  | cons c p ih =>
    rw [List.mem_cons, not_or] at h
    obtain ⟨q, qs, hq, hcs⟩ := pieces_cons_of_ne (Ne.symm h.1) (p ++ Letter.slash :: cs)
    rw [ih h.2, List.cons.injEq] at hq
    rw [List.cons_append, hcs, ← hq.1, ← hq.2]

theorem pieces_of_notMem {p : List α} (h : Letter.slash ∉ p) : pieces p = [p] := by
  induction p with
  | nil => rfl
  | cons c p ih =>
    rw [List.mem_cons, not_or] at h
    obtain ⟨q, qs, hq, hcs⟩ := pieces_cons_of_ne (Ne.symm h.1) p
    rw [ih h.2, List.cons.injEq] at hq
    rw [hcs, ← hq.1, ← hq.2]

/-- **Names without slashes are the pieces of the path that joins them.** -/
theorem pieces_join {ps : List (List α)} (hne : ps ≠ []) (h : ∀ p ∈ ps, Letter.slash ∉ p) :
    pieces (join ps) = ps := by
  induction ps with
  | nil => exact absurd rfl hne
  | cons p ps ih =>
    cases ps with
    | nil => exact pieces_of_notMem (h p List.mem_cons_self)
    | cons q qs =>
      rw [join_cons_cons, pieces_append (h p List.mem_cons_self),
        ih (List.cons_ne_nil q qs) fun r hr => h r (List.mem_cons_of_mem _ hr)]

/-- The path that joins names without slashes tells which names they are. -/
theorem join_inj {ps qs : List (List α)} (hps : ps ≠ []) (hqs : qs ≠ [])
    (hp : ∀ p ∈ ps, Letter.slash ∉ p) (hq : ∀ q ∈ qs, Letter.slash ∉ q) (h : join ps = join qs) :
    ps = qs := by
  rw [← pieces_join hps hp, h, pieces_join hqs hq]

end

/-! ### Paths in bytes -/

theorem slash_mem_encode_iff {cs : List Char} : Letter.slash ∈ Utf8.encode cs ↔ '/' ∈ cs :=
  Utf8.ascii_mem_encode_iff (n := 0x2F) (by decide)

theorem join_map_encode (ps : List (List Char)) :
    join (ps.map Utf8.encode) = Utf8.encode (join ps) := by
  induction ps with
  | nil => rfl
  | cons p ps ih =>
    cases ps with
    | nil => rfl
    | cons q qs =>
      rw [join_cons_cons p, Utf8.encode_append, Utf8.encode_cons, ← ih]
      rfl

/-- **The pieces of a text are those of its bytes.** -/
theorem pieces_encode (cs : List Char) :
    pieces (Utf8.encode cs) = (pieces cs).map Utf8.encode := by
  rw [← join_pieces cs, ← join_map_encode, pieces_join, join_pieces]
  · exact fun h => pieces_ne_nil cs (List.map_eq_nil_iff.1 h)
  · intro p hp hslash
    obtain ⟨q, hq, rfl⟩ := List.mem_map.1 hp
    exact slash_notMem_of_mem_pieces hq (slash_mem_encode_iff.1 hslash)

@[simp] theorem isIdle_encode (cs : List Char) : isIdle (Utf8.encode cs) = isIdle cs := by
  have h (ds : List Char) : (Utf8.encode cs == Utf8.encode ds) = (cs == ds) := by
    rw [Bool.eq_iff_iff, beq_iff_eq, beq_iff_eq, Utf8.encode_injective.eq_iff]
  exact congrArg₂ or (h []) (h ['.'])

@[simp] theorem encode_eq_up_iff {cs : List Char} : Utf8.encode cs = up ↔ cs = up :=
  Utf8.encode_injective.eq_iff (b := up)

/-- A path is read as text name by name. -/
theorem read_join (ps : List (List UInt8)) :
    Utf8.read (join ps) = join (ps.map Utf8.read) := by
  induction ps with
  | nil => rfl
  | cons p ps ih =>
    cases ps with
    | nil => rfl
    | cons q qs =>
      have hread := Utf8.read_append_ascii (n := 0x2F) (by decide) p (join (q :: qs))
      rw [ih] at hread
      exact hread

end Path

namespace IncludePath

section

variable (kept ps : List Component) (p : Component)

@[simp] theorem climb_nil : climb kept [] = some kept.reverse := by
  cases kept <;> rfl

@[simp] theorem climb_up_nil : climb [] (Path.up :: ps) = none := rfl

@[simp] theorem climb_up_cons : climb (p :: kept) (Path.up :: ps) = climb kept ps := rfl

theorem climb_name (h : p ≠ Path.up) : climb kept (p :: ps) = climb (p :: kept) ps := by
  cases kept <;> simp [climb, h]

end

theorem climb_names {kept ps : List Component} (h : ∀ p ∈ ps, p ≠ Path.up) :
    climb kept ps = some (kept.reverse ++ ps) := by
  induction ps generalizing kept with
  | nil => rw [climb_nil, List.append_nil]
  | cons p ps ih =>
    obtain ⟨hp, hps⟩ := List.forall_mem_cons.1 h
    rw [climb_name _ _ _ hp, ih hps, List.reverse_cons, List.append_assoc]
    rfl

theorem mem_of_mem_climb {kept ps parts : List Component} (h : climb kept ps = some parts)
    {p : Component} (hp : p ∈ parts) : p ∈ kept ∨ p ∈ ps ∧ p ≠ Path.up := by
  induction ps generalizing kept with
  | nil =>
    rw [climb_nil, Option.some.injEq] at h
    subst h
    exact .inl (List.mem_reverse.1 hp)
  | cons q qs ih =>
    by_cases hq : q = Path.up
    · subst hq
      cases kept with
      | nil =>
        rw [climb_up_nil] at h
        cases h
      | cons k kept =>
        rw [climb_up_cons] at h
        rcases ih h with hk | ⟨hqs, hup⟩
        · exact .inl (List.mem_cons_of_mem _ hk)
        · exact .inr ⟨List.mem_cons_of_mem _ hqs, hup⟩
    · rw [climb_name _ _ _ hq] at h
      rcases ih h with hk | ⟨hqs, hup⟩
      · rcases List.mem_cons.1 hk with rfl | hk
        · exact .inr ⟨List.mem_cons_self, hq⟩
        · exact .inl hk
      · exact .inr ⟨List.mem_cons_of_mem _ hqs, hup⟩

/-- The names that a path joins are its components. -/
theorem components_join {ps : List Component} (hne : ps ≠ []) (hslash : ∀ p ∈ ps, '/' ∉ p)
    (hidle : ∀ p ∈ ps, Path.isIdle p = false) : components (Path.join ps) = ps := by
  rw [components, Path.pieces_join hne hslash, List.filter_eq_self]
  intro p hp
  rw [hidle p hp]
  rfl

/-- The parts of a normal form are what climbing leaves of the components, and there are some. -/
theorem climb_of_resolve {path : String} {parts : List Component} (h : resolve path = .ok parts) :
    climb [] (components path.toList) = some parts ∧ parts ≠ [] := by
  unfold resolve at h
  dsimp only at h
  split at h
  · cases h
  · split at h
    · cases h
    · cases h
    · next hne hclimb =>
      cases h
      exact ⟨hclimb, hne⟩

theorem mem_of_resolve {path : String} {parts : List Component} (h : resolve path = .ok parts)
    {p : Component} (hp : p ∈ parts) : p ∈ components path.toList ∧ p ≠ Path.up :=
  (mem_of_mem_climb (climb_of_resolve h).1 hp).resolve_left List.not_mem_nil

/-- The parts of a normal form: there are some, and each is a name. -/
theorem parts_of_resolve {path : String} {parts : List Component} (h : resolve path = .ok parts) :
    parts ≠ [] ∧ ∀ p ∈ parts, '/' ∉ p ∧ Path.isIdle p = false ∧ p ≠ Path.up := by
  refine ⟨(climb_of_resolve h).2, fun p hp => ?_⟩
  obtain ⟨hc, hup⟩ := mem_of_resolve h hp
  rw [components, List.mem_filter] at hc
  exact ⟨Path.slash_notMem_of_mem_pieces hc.1, by simpa using hc.2, hup⟩

/-- The pieces of a normal form are its parts. -/
theorem normalize_eq_ok_iff {path normal : String} :
    normalize path = .ok normal ↔
      ∃ parts, resolve path = .ok parts ∧ normal = String.ofList (Path.join parts) := by
  rw [normalize]
  cases resolve path with
  | error e => simp [Except.map]
  | ok parts => simp [Except.map, eq_comm]

theorem pieces_of_resolve {path : String} {parts : List Component} (h : resolve path = .ok parts) :
    Path.pieces (String.ofList (Path.join parts)).toList = parts := by
  obtain ⟨hne, hparts⟩ := parts_of_resolve h
  rw [String.toList_ofList, Path.pieces_join hne fun p hp => (hparts p hp).1]

/-- In bytes, they are the bytes of its parts. -/
theorem pieces_encode_of_resolve {path : String} {parts : List Component}
    (h : resolve path = .ok parts) :
    Path.pieces (Utf8.encode (String.ofList (Path.join parts)).toList) =
      parts.map Utf8.encode := by
  rw [Path.pieces_encode, pieces_of_resolve h]

end IncludePath

end Stencil
