import Mathlib
import Stencil.Include.Memory
import Stencil.Proofs.Except
import Stencil.Proofs.Include.Cancelling

/-!
# Normal forms of include paths

The normal form of an include path is a path itself. It has the names of that path which are left,
with single slashes between them, so that nothing is cancelled in it and nothing passed over. It is
therefore its own normal form, and the key of an include that is kept in memory leads to the same
include (`normalize_normal`).

There is one exception. A blank path is refused, but a path with a blank name in it is not, and so a
normal form can be blank (`normalize_blank_name`).
-/

namespace Stencil

namespace Path

theorem mem_join {ps : List (List Char)} {p : List Char} {c : Char} (hp : p ∈ ps) (hc : c ∈ p) :
    c ∈ join ps := by
  induction ps with
  | nil => cases hp
  | cons q qs ih =>
    cases qs with
    | nil =>
      obtain rfl := List.mem_singleton.1 hp
      exact hc
    | cons r rs =>
      rw [join, List.mem_append, List.mem_cons]
      · obtain rfl | hp := List.mem_cons.1 hp
        · exact .inl hc
        · exact .inr (.inr (ih hp))
      · exact List.cons_ne_nil r rs

/-- The characters of a piece are characters of the path. -/
theorem mem_of_mem_pieces {cs : List Char} {p : List Char} {c : Char} (hp : p ∈ pieces cs)
    (hc : c ∈ p) : c ∈ cs := join_pieces cs ▸ mem_join hp hc

/-- A path does not start with a slash if its first name is not empty and has none. -/
theorem head?_join_ne {ps : List (List Char)} (h : ∀ p ∈ ps, '/' ∉ p ∧ isIdle p = false) :
    (join ps).head? ≠ some '/' := by
  cases ps with
  | nil => nofun
  | cons p ps =>
    obtain ⟨hslash, hidle⟩ := h p List.mem_cons_self
    cases p with
    | nil => cases hidle
    | cons c cs =>
      have hhead : (join ((c :: cs) :: ps)).head? = some c := by cases ps <;> rfl
      rw [hhead, ne_eq, Option.some.injEq]
      rintro rfl
      exact hslash List.mem_cons_self

end Path

namespace IncludePath

variable {path normal : String} {parts : List Component}

theorem not_isRefused_of_resolve (h : resolve path = .ok parts) : ¬ IsRefused path := by
  intro hr
  rw [resolve_of_isRefused hr] at h
  cases h

/-- A normal form is refused only if it is blank. -/
theorem isRefused_join_iff (h : resolve path = .ok parts) :
    IsRefused (String.ofList (Path.join parts)) ↔ isBlank (Path.join parts) = true := by
  have hnul : '\x00' ∉ Path.join parts := by
    refine Path.notMem_join (by decide) fun p hp hc => ?_
    refine not_isRefused_of_resolve h (.inr (.inl ?_))
    exact Path.mem_of_mem_pieces (List.mem_of_mem_filter (mem_of_resolve h hp).1) hc
  have hhead := Path.head?_join_ne fun p hp =>
    ⟨((parts_of_resolve h).2 p hp).1, ((parts_of_resolve h).2 p hp).2.1⟩
  simp [IsRefused, isBlank, hnul, hhead]

/-- The parts of a normal form are left of it again. -/
theorem resolve_join_eq (h : resolve path = .ok parts) :
    resolve (String.ofList (Path.join parts)) =
      if isBlank (Path.join parts) then
        .error ⟨.invalidPath, String.ofList (Path.join parts)⟩
      else .ok parts := by
  by_cases hb : isBlank (Path.join parts) = true
  · rw [if_pos hb, resolve_of_isRefused ((isRefused_join_iff h).2 hb)]
  · obtain ⟨hne, hparts⟩ := parts_of_resolve h
    have hcomponents := components_join hne (fun p hp => (hparts p hp).1)
      fun p hp => (hparts p hp).2.1
    have hclimb : climb [] parts = some parts := climb_names fun p hp => (hparts p hp).2.2
    rw [if_neg hb, resolve_of_not_isRefused (mt (isRefused_join_iff h).1 hb), String.toList_ofList,
      hcomponents, hclimb]
    split
    · next h => cases h
    · next h => exact absurd (Option.some.inj h) hne
    · next h => rw [Option.some.inj h]

/-- **A normal form is its own normal form, unless it is blank.** -/
theorem normalize_normal_eq (h : normalize path = .ok normal) :
    normalize normal =
      if isBlank normal.toList then .error ⟨.invalidPath, normal⟩ else .ok normal := by
  obtain ⟨parts, hparts, rfl⟩ := normalize_eq_ok_iff.1 h
  rw [normalize, resolve_join_eq hparts, String.toList_ofList]
  split <;> rfl

end IncludePath

theorem MemoryIncludes.resolver_eq_ok_iff {m : MemoryIncludes} {path : String} {r : Resolved} :
    m.resolver path = .ok r ↔
      IncludePath.normalize path = .ok r.key ∧ m.get? r.key = some r.content := by
  obtain ⟨key, content⟩ := r
  rw [resolver, bind_eq_ok_iff]
  constructor
  · rintro ⟨normal, hnormal, h⟩
    split at h
    · next hget =>
      cases h
      exact ⟨hnormal, hget⟩
    · cases h
  · rintro ⟨hnormal, hget⟩
    exact ⟨key, hnormal, by rw [hget]; rfl⟩

namespace IncludePath

/-- **Normal forms are normal.** The normal form of a path is its own normal form, and if the path
leads to an include in memory, then its key leads to the same. Only a blank normal form does not: it
is refused, as every blank path is. -/
theorem normalize_normal (path : String) :
    (∀ normal, normalize path = .ok normal →
      normalize normal =
        if isBlank normal.toList then .error ⟨.invalidPath, normal⟩ else .ok normal) ∧
    ∀ (m : MemoryIncludes) r, m.resolver path = .ok r →
      m.resolver r.key =
        if isBlank r.key.toList then .error ⟨.invalidPath, r.key⟩ else .ok r := by
  refine ⟨fun normal h => normalize_normal_eq h, fun m r h => ?_⟩
  obtain ⟨hnormal, hget⟩ := MemoryIncludes.resolver_eq_ok_iff.1 h
  have heq := normalize_normal_eq hnormal
  split
  · next hb =>
    rw [MemoryIncludes.resolver, heq, if_pos hb]
    rfl
  · next hb =>
    rw [if_neg hb] at heq
    exact MemoryIncludes.resolver_eq_ok_iff.2 ⟨heq, hget⟩

/-- A name that is a blank, with another one below it. -/
theorem normalize_normal_of_blank_directory :
    let m := MemoryIncludes.empty.insert " //./ b" "c"
    normalize "x/../ / b" = .ok " / b" ∧ normalize " / b" = .ok " / b" ∧
      m.resolver "x/../ / b" = .ok ⟨" / b", "c"⟩ ∧ m.resolver " / b" = .ok ⟨" / b", "c"⟩ := by
  intro m
  have h : normalize "x/../ / b" = .ok " / b" := by decide
  have hm : m.resolver "x/../ / b" = .ok ⟨" / b", "c"⟩ := by decide
  obtain ⟨hnormal, hkey⟩ := normalize_normal "x/../ / b"
  exact ⟨h, hnormal _ h, hm, hkey m _ hm⟩

/-- A name that is a blank: what is left of the path is refused. -/
theorem normalize_blank_name :
    let m := MemoryIncludes.empty.insert "./ " "c"
    normalize "./ " = .ok " " ∧ normalize " " = .error ⟨.invalidPath, " "⟩ ∧
      m.resolver "./ " = .ok ⟨" ", "c"⟩ ∧ m.resolver " " = .error ⟨.invalidPath, " "⟩ := by
  decide

end IncludePath

end Stencil
