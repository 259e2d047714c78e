import Mathlib
import Stencil.Proofs.Path

/-!
# Paths that stay inside

The components of an include path are names and `..`. A `..` cancels the nearest name before it that
is not cancelled yet, as a closing bracket closes the nearest bracket that is still open. A path has
no normal form if some initial part of its components has more `..` than names, because this leads
out of the place where the path begins, or if the whole has as many of both, because then nothing is
left. Every other path has one, and this consists of the names that are not cancelled
(`normalize_iff`).
-/

namespace Stencil

namespace Path

/-- The pieces of a path are what stands between its slashes. -/
theorem pieces_eq_splitOn (cs : List Char) : pieces cs = cs.splitOn '/' := by
  induction cs with
  | nil => rfl
  | cons c cs ih =>
    rw [List.splitOn, List.splitOnP_cons_eq_if_modifyHead, ← List.splitOn, ← ih]
    by_cases hc : c = '/'
    · rw [pieces, Letter.slash_char, if_pos hc, if_pos (beq_iff_eq.2 hc)]
    · obtain ⟨p, ps, hp, hcs⟩ := pieces_cons_of_ne hc cs
      rw [hcs, hp, if_neg (by simpa using hc), List.modifyHead_cons]

end Path

namespace IncludePath

variable {ps qs kept parts : List Component} {p : Component} {i j n : Nat} {path : String}

theorem components_eq (cs : List Char) :
    components cs = (cs.splitOn '/').filter fun p => p ≠ [] ∧ p ≠ ['.'] := by
  rw [components, Path.pieces_eq_splitOn]
  refine List.filter_congr fun p _ => ?_
  rw [Bool.eq_iff_iff]
  simp [Path.isIdle]

/-! ### Paths that are refused as they are -/

/-- The path is blank, has a NUL in it, or starts from the root. -/
def IsRefused (path : String) : Prop :=
  (∀ c ∈ path.toList, Unicode.isWhiteSpace c) ∨ '\x00' ∈ path.toList ∨ path.toList.head? = some '/'

theorem isRefused_iff : IsRefused path ↔ (isBlank path.toList || path.toList.contains '\x00' ||
    Path.isAbsolute path.toList) = true := by
  simp [IsRefused, isBlank, Path.isAbsolute, or_assoc]

theorem resolve_of_isRefused (h : IsRefused path) : resolve path = .error ⟨.invalidPath, path⟩ := by
  rw [resolve]
  exact if_pos (isRefused_iff.1 h)

theorem resolve_of_not_isRefused (h : ¬ IsRefused path) :
    resolve path = match climb [] (components path.toList) with
      | none => .error ⟨.escape, path⟩
      | some [] => .error ⟨.invalidPath, path⟩
      | some parts => .ok parts := by
  rw [resolve]
  exact if_neg (mt isRefused_iff.2 h)

/-! ### Counting -/

/-- Some initial part of the components has more `..` than names. -/
def Escapes (ps : List Component) : Prop :=
  ∃ qs, qs <+: ps ∧ qs.countP (· ≠ Path.up) < qs.count Path.up

theorem exists_prefix_cons_iff {P : List Component → Prop} :
    (∃ qs, qs <+: p :: ps ∧ P qs) ↔ P [] ∨ ∃ qs, qs <+: ps ∧ P (p :: qs) := by
  constructor
  · rintro ⟨qs, hqs, h⟩
    obtain rfl | ⟨rs, rfl, hrs⟩ := List.prefix_cons_iff.1 hqs
    · exact .inl h
    · exact .inr ⟨rs, hrs, h⟩
  · rintro (h | ⟨qs, hqs, h⟩)
    · exact ⟨[], List.nil_prefix, h⟩
    · exact ⟨p :: qs, List.cons_prefix_cons.2 ⟨rfl, hqs⟩, h⟩

theorem countP_up_cons (ps : List Component) :
    (Path.up :: ps).countP (· ≠ Path.up) = ps.countP (· ≠ Path.up) :=
  List.countP_cons_of_neg (by simp)

theorem countP_name_cons (hp : p ≠ Path.up) (ps : List Component) :
    (p :: ps).countP (· ≠ Path.up) = ps.countP (· ≠ Path.up) + 1 :=
  List.countP_cons_of_pos (by simpa using hp)

/-- **Climbing fails where more is taken back than there is.** -/
theorem climb_eq_none_iff : climb kept ps = none ↔
    ∃ qs, qs <+: ps ∧ kept.length + qs.countP (· ≠ Path.up) < qs.count Path.up := by
  induction ps generalizing kept with
  | nil => simp
  | cons p ps ih =>
    have hnil : ¬ kept.length + ([] : List Component).countP (· ≠ Path.up) <
        ([] : List Component).count Path.up := by simp
    rw [exists_prefix_cons_iff, or_iff_right hnil]
    by_cases hp : p = Path.up
    · subst hp
      cases kept with
      | nil =>
        rw [climb_up_nil]
        exact iff_of_true rfl ⟨[], List.nil_prefix, by simp⟩
      | cons k kept =>
        rw [climb_up_cons, ih]
        refine exists_congr fun qs => and_congr_right fun _ => ?_
        rw [countP_up_cons, List.count_cons_self, List.length_cons]
        omega
    · rw [climb_name _ _ _ hp, ih]
      refine exists_congr fun qs => and_congr_right fun _ => ?_
      rw [countP_name_cons hp, List.count_cons_of_ne hp, List.length_cons]
      omega

theorem escapes_iff : Escapes ps ↔ climb [] ps = none := by
  simp [Escapes, climb_eq_none_iff]

/-- What is left are the names less those that are cancelled. -/
theorem length_climb (h : climb kept ps = some parts) :
    parts.length + ps.count Path.up = kept.length + ps.countP (· ≠ Path.up) := by
  induction ps generalizing kept with
  | nil =>
    rw [climb_nil, Option.some.injEq] at h
    simp [← h]
  | cons p ps ih =>
    by_cases hp : p = Path.up
    · subst hp
      cases kept with
      | nil =>
        rw [climb_up_nil] at h
        cases h
      | cons k kept =>
        have hkept := ih h
        rw [countP_up_cons, List.count_cons_self, List.length_cons]
        omega
    · rw [climb_name _ _ _ hp] at h
      have hkept := ih h
      rw [List.length_cons] at hkept
      rw [countP_name_cons hp, List.count_cons_of_ne hp]
      omega

/-! ### What cancels what -/

/-- The `..` at `j` cancels the name at `i`: it is the last one before `j` that no earlier `..`
cancels. -/
def Cancels (ps : List Component) (i j : Nat) : Prop :=
  ps[j]? = some Path.up ∧
    IsGreatest {i | i < j ∧ (∃ p, ps[i]? = some p ∧ p ≠ Path.up) ∧ ∀ k < j, ¬ Cancels ps i k} i
termination_by j

/-- At `i` there is a name, which nothing among the first `n` components cancels. -/
def Stands (ps : List Component) (n i : Nat) : Prop :=
  i < n ∧ (∃ p, ps[i]? = some p ∧ p ≠ Path.up) ∧ ∀ k < n, ¬ Cancels ps i k

theorem cancels_iff : Cancels ps i j ↔ ps[j]? = some Path.up ∧ IsGreatest {i | Stands ps j i} i := by
  rw [Cancels]
  rfl

theorem lt_of_cancels (h : Cancels ps i j) : i < j := (cancels_iff.1 h).2.1.1

theorem stands_succ_iff : Stands ps (n + 1) i ↔
    (i = n ∧ ∃ p, ps[n]? = some p ∧ p ≠ Path.up) ∨ Stands ps n i ∧ ¬ Cancels ps i n := by
  constructor
  · rintro ⟨hi, hname, hk⟩
    obtain rfl | hlt := Nat.eq_or_lt_of_le (Nat.lt_succ_iff.1 hi)
    · exact .inl ⟨rfl, hname⟩
    · exact .inr ⟨⟨hlt, hname, fun k h => hk k (Nat.lt_succ_of_lt h)⟩, hk n (Nat.lt_succ_self n)⟩
  · rintro (⟨rfl, hname⟩ | ⟨⟨hlt, hname, hk⟩, hn⟩)
    · refine ⟨Nat.lt_succ_self i, hname, fun k hk hc => ?_⟩
      exact absurd (lt_of_cancels hc) (Nat.not_lt.2 (Nat.lt_succ_iff.1 hk))
    · refine ⟨Nat.lt_succ_of_lt hlt, hname, fun k h => ?_⟩
      obtain rfl | h := Nat.eq_or_lt_of_le (Nat.lt_succ_iff.1 h)
      · exact hn
      · exact hk k h

/-- The positions of the names that stand after the first components, the last one first. -/
def standing (ps : List Component) : Nat → List Nat
  | 0 => []
  | n + 1 =>
    match ps[n]? with
    | none => standing ps n
    | some p => if p = Path.up then (standing ps n).tail else n :: standing ps n

theorem standing_of_none (h : ps[n]? = none) : standing ps (n + 1) = standing ps n := by
  rw [standing, h]

theorem standing_of_up (h : ps[n]? = some Path.up) :
    standing ps (n + 1) = (standing ps n).tail := by
  rw [standing, h]
  exact if_pos rfl

theorem standing_of_name (h : ps[n]? = some p) (hp : p ≠ Path.up) :
    standing ps (n + 1) = n :: standing ps n := by
  rw [standing, h]
  exact if_neg hp

theorem lt_of_mem_standing (h : i ∈ standing ps n) : i < n := by
  induction n with
  | zero => cases h
  | succ n ih =>
    rw [standing] at h
    split at h
    · exact Nat.lt_succ_of_lt (ih h)
    · split at h
      · exact Nat.lt_succ_of_lt (ih (List.mem_of_mem_tail h))
      · obtain rfl | h := List.mem_cons.1 h
        · exact Nat.lt_succ_self i
        · exact Nat.lt_succ_of_lt (ih h)

theorem pairwise_standing (ps : List Component) (n : Nat) :
    (standing ps n).Pairwise (· > ·) := by
  induction n with
  | zero => exact .nil
  | succ n ih =>
    rw [standing]
    split
    · exact ih
    · split
      · exact ih.tail
      · exact ih.cons fun i hi => lt_of_mem_standing hi

/-- A `..` cancels the last of these. -/
theorem cancels_iff_eq_head {k : Nat} {ks : List Nat} (hup : ps[n]? = some Path.up)
    (hmem : ∀ i, i ∈ standing ps n ↔ Stands ps n i) (hs : standing ps n = k :: ks) :
    Cancels ps i n ↔ i = k := by
  have hpair := List.pairwise_cons.1 (hs ▸ pairwise_standing ps n)
  have hk : IsGreatest {i | Stands ps n i} k := by
    refine ⟨(hmem k).1 (hs ▸ List.mem_cons_self), fun i hi => ?_⟩
    obtain rfl | hi := List.mem_cons.1 (hs ▸ (hmem i).2 hi)
    · exact le_rfl
    · exact (hpair.1 i hi).le
  rw [cancels_iff]
  exact ⟨fun hi => hi.2.unique hk, fun hi => ⟨hup, hi ▸ hk⟩⟩

/-- **These are all the names that stand.** -/
theorem mem_standing_iff : i ∈ standing ps n ↔ Stands ps n i := by
  induction n generalizing i with
  | zero => simp [standing, Stands]
  | succ n ih =>
    rw [stands_succ_iff]
    cases h : ps[n]? with
    | none => simp [standing_of_none h, ih, cancels_iff, h]
    | some p =>
      by_cases hp : p = Path.up
      · subst hp
        have hname : ¬ ∃ p : Component, some Path.up = some p ∧ p ≠ Path.up := by simp
        rw [standing_of_up h]
        cases hs : standing ps n with
        | nil => simp [← ih, hs]
        | cons k ks =>
          have hpair := List.pairwise_cons.1 (hs ▸ pairwise_standing ps n)
          rw [List.tail_cons, ← ih, hs, cancels_iff_eq_head h (fun _ => ih) hs, List.mem_cons]
          constructor
          · exact fun hi => .inr ⟨.inr hi, (hpair.1 i hi).ne⟩
          · rintro (⟨-, hn⟩ | ⟨rfl | hi, hne⟩)
            · exact absurd hn hname
            · exact absurd rfl hne
            · exact hi
      · simp [standing_of_name h hp, ih, cancels_iff, h, hp]

instance (ps : List Component) (n i : Nat) : Decidable (Stands ps n i) :=
  decidable_of_iff _ mem_standing_iff

/-- The names that nothing cancels, in their order. -/
def uncancelled (ps : List Component) : List Component :=
  ((List.range ps.length).filter (Stands ps ps.length ·)).filterMap (ps[·]?)

theorem climb_append (kept ps qs : List Component) :
    climb kept (ps ++ qs) = (climb kept ps).bind fun parts => climb parts.reverse qs := by
  induction ps generalizing kept with
  | nil => simp
  | cons p ps ih =>
    rw [List.cons_append]
    by_cases hp : p = Path.up
    · subst hp
      cases kept with
      | nil => rfl
      | cons k kept => exact ih kept
    · rw [climb_name _ _ _ hp, climb_name _ _ _ hp, ih]

/-- What is kept of the first components are the names that stand after them. -/
theorem map_standing (h : climb [] (ps.take n) = some parts) :
    (standing ps n).map (ps[·]?) = parts.reverse.map some := by
  induction n generalizing parts with
  | zero =>
    rw [List.take_zero, climb_nil, Option.some.injEq] at h
    rw [← h]
    rfl
  | succ n ih =>
    rw [List.take_add_one, climb_append, Option.bind_eq_some_iff] at h
    obtain ⟨before, hbefore, h⟩ := h
    have hbefore := ih hbefore
    cases hn : ps[n]? with
    | none =>
      rw [hn, Option.toList_none, climb_nil, List.reverse_reverse, Option.some.injEq] at h
      rw [standing_of_none hn, hbefore, h]
    | some p =>
      rw [hn, Option.toList_some] at h
      by_cases hp : p = Path.up
      · subst hp
        rw [standing_of_up hn, List.map_tail, hbefore]
        cases hrev : before.reverse with
        | nil =>
          rw [hrev] at h
          cases h
        | cons k kept =>
          rw [hrev, climb_up_cons, climb_nil, Option.some.injEq] at h
          rw [← h, List.reverse_reverse, List.map_cons, List.tail_cons]
      · rw [climb_name _ _ _ hp, climb_nil, Option.some.injEq] at h
        rw [standing_of_name hn hp, List.map_cons, hbefore, hn, ← h, List.reverse_reverse,
          List.map_cons]

theorem filter_stands (ps : List Component) (n : Nat) :
    (List.range n).filter (Stands ps n ·) = (standing ps n).reverse := by
  have hrange := (List.pairwise_lt_range (n := n)).filter (Stands ps n ·)
  have hstanding := List.pairwise_reverse.2 (pairwise_standing ps n)
  refine List.Perm.eq_of_pairwise (fun a b _ _ hab hba => absurd hab hba.not_gt) hrange hstanding ?_
  refine (List.perm_ext_iff_of_nodup (hrange.imp ne_of_lt) (hstanding.imp ne_of_lt)).2 fun i => ?_
  rw [List.mem_filter, List.mem_range, List.mem_reverse, decide_eq_true_iff, ← mem_standing_iff]
  exact ⟨And.right, fun h => ⟨lt_of_mem_standing h, h⟩⟩

/-- **Climbing leaves the names that nothing cancels.** -/
theorem eq_uncancelled (h : climb [] ps = some parts) : parts = uncancelled ps := by
  have hmap := map_standing (n := ps.length) (by rwa [List.take_length])
  calc parts
    _ = (parts.map some).filterMap id := by rw [List.filterMap_map]; simp
    _ = ((standing ps ps.length).reverse.map (ps[·]?)).filterMap id := by
      rw [List.map_reverse, hmap, ← List.map_reverse, List.reverse_reverse]
    _ = uncancelled ps := by rw [uncancelled, filter_stands, List.filterMap_map]; rfl

/-! ### Outcomes -/

section

variable (h : ¬ IsRefused path)

theorem normalize_of_isRefused (h : IsRefused path) :
    normalize path = .error ⟨.invalidPath, path⟩ := by
  rw [normalize, resolve_of_isRefused h]
  rfl

include h

theorem normalize_of_escapes (he : Escapes (components path.toList)) :
    normalize path = .error ⟨.escape, path⟩ := by
  rw [normalize, resolve_of_not_isRefused h, escapes_iff.1 he]
  rfl

variable (he : ¬ Escapes (components path.toList))

include he

theorem normalize_of_count_eq (hc : (components path.toList).count Path.up =
    (components path.toList).countP (· ≠ Path.up)) :
    normalize path = .error ⟨.invalidPath, path⟩ := by
  rw [escapes_iff, ← ne_eq, Option.ne_none_iff_exists'] at he
  obtain ⟨parts, hclimb⟩ := he
  have hlength := length_climb hclimb
  have hnil : parts = [] := by
    rw [← List.length_eq_zero_iff]
    simp only [List.length_nil] at hlength
    omega
  rw [normalize, resolve_of_not_isRefused h, hclimb, hnil]
  rfl

theorem exists_normalize_of_count_ne (hc : (components path.toList).count Path.up ≠
    (components path.toList).countP (· ≠ Path.up)) :
    ∃ normal, normalize path = .ok normal ∧
      normal.toList.splitOn '/' = uncancelled (components path.toList) := by
  rw [escapes_iff, ← ne_eq, Option.ne_none_iff_exists'] at he
  obtain ⟨parts, hclimb⟩ := he
  have hlength := length_climb hclimb
  have hresolve : resolve path = .ok parts := by
    rw [resolve_of_not_isRefused h, hclimb]
    cases parts with
    | nil =>
      simp only [List.length_nil] at hlength
      omega
    | cons p ps => rfl
  refine ⟨_, normalize_eq_ok_iff.2 ⟨parts, hresolve, rfl⟩, ?_⟩
  rw [← Path.pieces_eq_splitOn, pieces_of_resolve hresolve, eq_uncancelled hclimb]

end

/-- **Which include paths have a normal form, and which.** The components of a path are what stands
between its slashes, but for `.` and where there is nothing. A path that is blank, absolute or has a
NUL in it is refused. Otherwise it escapes if and only if in some initial part of its components
there are more `..` than names; and if it does not, it is refused if and only if there are as many
of both, and else its normal form has the names that stay when each `..` cancels the nearest one
before it that is not cancelled yet. -/
theorem normalize_iff (path : String) :
    components path.toList = (path.toList.splitOn '/').filter (fun p => p ≠ [] ∧ p ≠ ['.']) ∧
    (normalize path = .error ⟨.invalidPath, path⟩ ↔
      IsRefused path ∨ ¬ Escapes (components path.toList) ∧
        (components path.toList).count Path.up =
          (components path.toList).countP (· ≠ Path.up)) ∧
    (normalize path = .error ⟨.escape, path⟩ ↔
      ¬ IsRefused path ∧ Escapes (components path.toList)) ∧
    ((∃ normal, normalize path = .ok normal ∧
        normal.toList.splitOn '/' = uncancelled (components path.toList)) ↔
      ¬ IsRefused path ∧ ¬ Escapes (components path.toList) ∧
        (components path.toList).count Path.up ≠
          (components path.toList).countP (· ≠ Path.up)) := by
  refine ⟨components_eq path.toList, ?_⟩
  by_cases h : IsRefused path
  · simp [normalize_of_isRefused h, h]
  by_cases he : Escapes (components path.toList)
  · simp [normalize_of_escapes h he, h, he]
  by_cases hc : (components path.toList).count Path.up =
      (components path.toList).countP (· ≠ Path.up)
  · simp [normalize_of_count_eq h he hc, h, he, hc]
  · obtain ⟨normal, hok, hpieces⟩ := exists_normalize_of_count_ne h he hc
    refine ⟨?_, ?_, ?_⟩
    · exact iff_of_false (by simp [hok]) fun hor => hor.elim h fun hand => hc hand.2
    · simp [hok, h, he]
    · exact iff_of_true ⟨normal, hok, hpieces⟩ ⟨h, he, hc⟩

/-- Two names that are cancelled, one inside the other. -/
example : uncancelled [['a'], ['b'], ['c'], Path.up, Path.up, ['d']] = [['a'], ['d']] := by decide

end IncludePath

end Stencil
