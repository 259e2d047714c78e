import Mathlib
import Stencil.Proofs.Include.NormalForm

/-!
# The last content under a path

Contents in memory are found by the normal form of their path, whatever its spelling, and of several
contents under one normal form the one that was put in last (`resolver_ofList`). A request fails as
its path does when this has no normal form.

A content whose path has no normal form is kept under the path as it was written. No request asks
for such a path unless it is a blank name, and then a request for this name finds the content
(`resolver_of_refused_path`).
-/

namespace Stencil

namespace MemoryIncludes

variable {path normal : String}

/-! ### What is kept -/

theorem lookup_cons (key content : String) (files : List (String × String)) (k : String) :
    ((key, content) :: files).lookup k = if k = key then some content else files.lookup k := by
  by_cases h : k = key
  · simp [h]
  · simp [List.lookup_cons, h, beq_false_of_ne h]

theorem lookup_put (key content : String) (files : List (String × String)) (k : String) :
    (put key content files).lookup k = if k = key then some content else files.lookup k := by
  induction files with
  | nil => exact lookup_cons key content [] k
  | cons file files ih =>
    obtain ⟨key', content'⟩ := file
    by_cases hkey : key' = key
    · rw [put, if_pos hkey, lookup_cons, lookup_cons, hkey]
      by_cases h : k = key
      · rw [if_pos h, if_pos h]
      · rw [if_neg h, if_neg h, if_neg h]
    · rw [put, if_neg hkey, lookup_cons, lookup_cons, ih]
      by_cases h : k = key'
      · rw [if_pos h, if_pos h, if_neg fun hk => hkey (h.symm.trans hk)]
      · rw [if_neg h, if_neg h]

theorem get?_insert (m : MemoryIncludes) (path content key : String) :
    (m.insert path content).get? key = if key = keyOf path then some content else m.get? key :=
  lookup_put _ _ _ _

theorem ofList_concat (files : List (String × String)) (path content : String) :
    ofList (files ++ [(path, content)]) = (ofList files).insert path content := by
  rw [ofList, List.foldl_append]
  rfl

/-- Under a key there is the content that was put in last under it. -/
theorem get?_ofList (files : List (String × String)) (key : String) :
    (ofList files).get? key = (files.findRev? (keyOf ·.1 = key)).map Prod.snd := by
  rw [List.findRev?_eq_find?_reverse]
  -- the last content counts, so the induction takes it off first
  induction files using List.reverseRecOn with
  | nil => rfl
  | append_singleton files file ih =>
    obtain ⟨path, content⟩ := file
    rw [ofList_concat, get?_insert, List.reverse_concat, List.find?_cons, ih]
    by_cases h : key = keyOf path
    · simp [h]
    · simp [h, Ne.symm h]

/-- What is found under a key was put in under a path that is kept there. -/
theorem exists_mem_of_get?_ofList {files : List (String × String)} {key content : String}
    (h : (ofList files).get? key = some content) :
    ∃ path, (path, content) ∈ files ∧ keyOf path = key := by
  rw [get?_ofList, List.findRev?_eq_find?_reverse, Option.map_eq_some_iff] at h
  obtain ⟨⟨path, c⟩, hfind, rfl⟩ := h
  exact ⟨path, List.mem_reverse.1 (List.mem_of_find?_eq_some hfind), by
    simpa using List.find?_some hfind⟩

theorem get?_ofList_ne_none {files : List (String × String)} {file : String × String}
    (h : file ∈ files) : (ofList files).get? (keyOf file.1) ≠ none := by
  rw [get?_ofList, List.findRev?_eq_find?_reverse, ne_eq, Option.map_eq_none_iff,
    List.find?_eq_none]
  exact fun hall => hall file (List.mem_reverse.2 h) (decide_eq_true rfl)

/-! ### Keys -/

/-- A content under `path` is found under `normal`: this is its normal form, or it is `path` itself,
a blank one, which has none. -/
def IsFoundUnder (path normal : String) : Prop :=
  IncludePath.normalize path = .ok normal ∨ IncludePath.isBlank normal.toList ∧ path = normal

instance (path normal : String) : Decidable (IsFoundUnder path normal) :=
  inferInstanceAs (Decidable (_ ∨ _))

theorem keyOf_of_ok (h : IncludePath.normalize path = .ok normal) : keyOf path = normal := by
  rw [keyOf, h]
  rfl

theorem keyOf_of_error {e : IncludeError} (h : IncludePath.normalize path = .error e) :
    keyOf path = path := by
  rw [keyOf, h]
  rfl

/-- Only for a blank path this is more than its normal form. -/
theorem isFoundUnder_iff (h : IncludePath.isBlank normal.toList = false) :
    IsFoundUnder path normal ↔ IncludePath.normalize path = .ok normal := by
  simp [IsFoundUnder, h]

/-- **A path that is kept as it was written is no normal form, unless it is blank.** -/
theorem keyOf_eq_iff {asked : String} (h : IncludePath.normalize asked = .ok normal) :
    keyOf path = normal ↔ IsFoundUnder path normal := by
  have hnormal := IncludePath.normalize_normal_eq h
  cases hpath : IncludePath.normalize path with
  | ok other =>
    rw [keyOf_of_ok hpath, IsFoundUnder, hpath, Except.ok.injEq]
    refine ⟨.inl, fun hor => hor.resolve_right ?_⟩
    rintro ⟨hb, rfl⟩
    rw [if_pos hb, hpath] at hnormal
    cases hnormal
  | error e =>
    rw [keyOf_of_error hpath, IsFoundUnder, hpath]
    constructor
    · rintro rfl
      refine .inr ⟨?_, rfl⟩
      by_contra hb
      rw [if_neg hb, hpath] at hnormal
      cases hnormal
    · rintro (hok | ⟨-, rfl⟩)
      · cases hok
      · rfl

/-! ### What is found -/

theorem resolver_of_error {e : IncludeError} (m : MemoryIncludes)
    (h : IncludePath.normalize path = .error e) : m.resolver path = .error e := by
  rw [resolver, h]
  rfl

theorem resolver_of_ok (files : List (String × String))
    (h : IncludePath.normalize path = .ok normal) :
    (ofList files).resolver path =
      match files.findRev? (IsFoundUnder ·.1 normal) with
      | some (_, content) => .ok ⟨normal, content⟩
      | none => .error ⟨.notFound, path⟩ := by
  have hkeys : (fun file : String × String => decide (keyOf file.1 = normal)) =
      fun file => decide (IsFoundUnder file.1 normal) :=
    funext fun _ => decide_eq_decide.2 (keyOf_eq_iff h)
  rw [resolver, h, ok_bind, get?_ofList, hkeys]
  cases files.findRev? (IsFoundUnder ·.1 normal) <;> rfl

/-- **The last content under a path counts.** A request fails as its path does when this has no
normal form. Otherwise it is answered with the normal form as the key, and with the content that was
put in last under a path of this normal form; if there is none, then nothing is found. A content
whose path is refused is never served, unless the path is blank and the key that is asked for. -/
theorem resolver_ofList (files : List (String × String)) (path : String) :
    (∀ e, IncludePath.normalize path = .error e → (ofList files).resolver path = .error e) ∧
    (∀ normal, IncludePath.normalize path = .ok normal →
      (IncludePath.isBlank normal.toList = false →
        (ofList files).resolver path =
          match files.findRev? (IncludePath.normalize ·.1 = .ok normal) with
          | some (_, content) => .ok ⟨normal, content⟩
          | none => .error ⟨.notFound, path⟩) ∧
      (ofList files).resolver path =
        match files.findRev? (IsFoundUnder ·.1 normal) with
        | some (_, content) => .ok ⟨normal, content⟩
        | none => .error ⟨.notFound, path⟩) ∧
    ∀ r, (ofList files).resolver path = .ok r →
      ∃ file ∈ files, file.2 = r.content ∧ IsFoundUnder file.1 r.key := by
  refine ⟨fun e => resolver_of_error _, fun normal h => ⟨fun hb => ?_, resolver_of_ok files h⟩,
    fun r hr => ?_⟩
  · have hfound : (fun file : String × String => decide (IsFoundUnder file.1 normal)) =
        fun file => decide (IncludePath.normalize file.1 = .ok normal) :=
      funext fun _ => decide_eq_decide.2 (isFoundUnder_iff hb)
    rw [resolver_of_ok files h, hfound]
  · obtain ⟨hnormal, hget⟩ := resolver_eq_ok_iff.1 hr
    obtain ⟨other, hmem, hkey⟩ := exists_mem_of_get?_ofList hget
    exact ⟨(other, r.content), hmem, rfl, (keyOf_eq_iff hnormal).1 hkey⟩

/-- Two contents under spellings of one path, and one under a path that leads outside. -/
theorem resolver_ofList_of_two_spellings :
    let files := [("a/../b", "first"), ("./b", "last"), ("../b", "outside")]
    IncludePath.normalize "b/." = .ok "b" ∧ IncludePath.isBlank "b".toList = false ∧
      (ofList files).resolver "b/." = .ok ⟨"b", "last"⟩ := by
  intro files
  have h : IncludePath.normalize "b/." = .ok "b" := by decide
  have hb : IncludePath.isBlank "b".toList = false := by decide
  exact ⟨h, hb, (((resolver_ofList files "b/.").2.1 "b" h).1 hb).trans (by decide)⟩

/-- A content under a blank path, which is refused, is served for a path that has a blank name
left. -/
theorem resolver_of_refused_path :
    IncludePath.normalize " " = .error ⟨.invalidPath, " "⟩ ∧
      (ofList [(" ", "kept")]).resolver "./ " = .ok ⟨" ", "kept"⟩ := by
  decide

end MemoryIncludes

end Stencil
