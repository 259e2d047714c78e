import Mathlib
import Stencil.Json.Reader
import Stencil.Proofs.Except

/-!
# The fields of the objects that are read

Fields that are put in one after the other stand in the order of their names, each name once
(`Fields.sorted_ofList`), and the objects in a value that was read keep their fields so, at any
depth (`Json.IsRead.object`). Of such fields some can be left out, and the others are found as
before.
-/

namespace Stencil

namespace Fields

variable {α : Type} {name : String} {value : α} {fields : List (String × α)}

/-! ### Order -/

/-- The fields stand in the order of their names, and no two have one name. -/
def Sorted (fields : List (String × α)) : Prop := fields.Pairwise fun f g => f.1 < g.1

theorem mem_of_mem_insert {f : String × α} (h : f ∈ insert name value fields) :
    f = (name, value) ∨ f ∈ fields := by
  induction fields with
  | nil => exact .inl (List.mem_singleton.1 h)
  | cons g fields ih =>
    obtain ⟨k, v⟩ := g
    rw [insert] at h
    split at h
    · exact (List.mem_cons.1 h).imp_right (List.mem_cons_of_mem _)
    split at h
    · exact List.mem_cons.1 h
    · obtain rfl | h := List.mem_cons.1 h
      · exact .inr List.mem_cons_self
      · exact (ih h).imp_right (List.mem_cons_of_mem _)

theorem Sorted.insert (h : Sorted fields) (name : String) (value : α) :
    Sorted (Fields.insert name value fields) := by
  induction fields with
  | nil => exact List.pairwise_singleton _ _
  | cons g fields ih =>
    obtain ⟨k, v⟩ := g
    obtain ⟨hk, hfields⟩ := List.pairwise_cons.1 h
    rw [Fields.insert]
    split
    · next heq =>
      subst heq
      exact List.pairwise_cons.2 ⟨hk, hfields⟩
    split
    · next hlt =>
      refine List.pairwise_cons.2 ⟨List.forall_mem_cons.2 ⟨hlt, fun f hf => ?_⟩, h⟩
      exact hlt.trans (hk f hf)
    · next hne hle =>
      refine List.pairwise_cons.2 ⟨fun f hf => ?_, ih hfields⟩
      obtain rfl | hf := mem_of_mem_insert hf
      · exact lt_of_le_of_ne (not_lt.1 hle) (Ne.symm hne)
      · exact hk f hf

theorem ofList_concat (fields : List (String × α)) (name : String) (value : α) :
    ofList (fields ++ [(name, value)]) = Fields.insert name value (ofList fields) := by
  rw [ofList, List.foldl_append]
  rfl

/-- **Fields that are put in stand in the order of their names.** -/
theorem sorted_ofList (fields : List (String × α)) : Sorted (ofList fields) := by
  induction fields using List.reverseRecOn with
  | nil => exact .nil
  | append_singleton fields f ih =>
    obtain ⟨k, v⟩ := f
    rw [ofList_concat]
    exact ih.insert k v

theorem mem_of_mem_ofList {f : String × α} (h : f ∈ ofList fields) : f ∈ fields := by
  induction fields using List.reverseRecOn with
  | nil => exact h
  | append_singleton fields g ih =>
    obtain ⟨k, v⟩ := g
    rw [ofList_concat] at h
    obtain rfl | h := mem_of_mem_insert h
    · exact List.mem_append_right _ List.mem_cons_self
    · exact List.mem_append_left _ (ih h)

/-! ### Finding a field -/

theorem mem_of_get? (h : get? name fields = some value) : (name, value) ∈ fields := by
  induction fields with
  | nil => cases h
  | cons f fields ih =>
    obtain ⟨k, v⟩ := f
    rw [get?] at h
    split at h
    · next hk =>
      cases h
      exact hk ▸ List.mem_cons_self
    · exact List.mem_cons_of_mem _ (ih h)

theorem get?_eq_none (h : ∀ f ∈ fields, f.1 ≠ name) : get? name fields = none := by
  cases hg : get? name fields with
  | none => rfl
  | some value => exact absurd rfl (h _ (mem_of_get? hg))

/-- Behind a field there is none of its name. -/
theorem Sorted.get?_tail {f : String × α} (h : Sorted (f :: fields)) : get? f.1 fields = none :=
  get?_eq_none fun g hg => ((List.pairwise_cons.1 h).1 g hg).ne'

/-- Leaving out some fields leaves out their values. -/
theorem Sorted.get?_filter (h : Sorted fields) (p : String × α → Bool) (name : String) :
    get? name (fields.filter p) = (get? name fields).filter fun v => p (name, v) := by
  induction fields with
  | nil => rfl
  | cons f fields ih =>
    obtain ⟨k, v⟩ := f
    have hrest := ih (List.pairwise_cons.1 h).2
    by_cases hk : k = name
    · subst hk
      rw [h.get?_tail] at hrest
      rw [List.filter_cons, get?, if_pos rfl, Option.filter_some]
      by_cases hp : p (k, v)
      · rw [if_pos hp, if_pos hp, get?, if_pos rfl]
      · rw [if_neg hp, if_neg hp, hrest]
        rfl
    · rw [List.filter_cons, get?, if_neg hk, ← hrest]
      split
      · rw [get?, if_neg hk]
      · rfl

theorem get?_concat (fields : List (String × α)) (name : String) (f : String × α) :
    get? name (fields ++ [f]) =
      (get? name fields).or (if f.1 = name then some f.2 else none) := by
  induction fields with
  | nil => rfl
  | cons g fields ih =>
    obtain ⟨k, v⟩ := g
    rw [List.cons_append, get?, get?]
    split
    · rfl
    · exact ih

/-- Fields that stand in order are found after they were put in one after the other. -/
theorem Sorted.get?_ofList (h : Sorted fields) (name : String) :
    get? name (ofList fields) = get? name fields := by
  induction fields using List.reverseRecOn with
  | nil => rfl
  | append_singleton fields f ih =>
    obtain ⟨hfields, -, hlast⟩ := List.pairwise_append.1 h
    obtain ⟨k, v⟩ := f
    rw [ofList_concat, get?_concat]
    by_cases hk : k = name
    · subst hk
      have hnone : get? k fields = none :=
        get?_eq_none fun g hg => (hlast g hg (k, v) List.mem_cons_self).ne
      rw [get?_insert_self, hnone, if_pos rfl, Option.none_or]
    · rw [get?_insert_of_ne (Ne.symm hk), ih hfields, if_neg hk, Option.or_none]

end Fields

/-! ### Values that are read -/

namespace Json

/-- The value is read from some text. -/
def IsRead (v : Json) : Prop := ∃ depth cs p, value depth cs = .ok p ∧ p.value = v

theorem isRead_of_fields {depth : Nat} {first : Bool} {cs : List Char}
    {p : Parsed (List (String × Json)) cs.length} (h : fields depth first cs = .ok p) :
    ∀ f ∈ p.value, f.2.IsRead := by
  rw [fields] at h
  obtain ⟨next, -, h⟩ := bind_eq_ok_iff.1 h
  cases next with
  | finished rest hr =>
    cases h
    exact List.forall_mem_nil _
  | field name rest hr =>
    obtain ⟨v, hv, h⟩ := bind_eq_ok_iff.1 h
    obtain ⟨vs, hvs, h⟩ := bind_eq_ok_iff.1 h
    cases h
    have hlt := Nat.lt_trans v.length_rest_lt hr
    exact List.forall_mem_cons.2 ⟨⟨_, _, v, hv, rfl⟩, isRead_of_fields hvs⟩
termination_by cs.length

/-- The rest of a word says nothing about its value. -/
theorem value_of_word {α : Type} {a : α} {letters cs : List Char} {p : Parsed α (cs.length + 1)}
    (h : word a letters cs = .ok p) : p.value = a := by
  induction letters generalizing cs p with
  | nil =>
    cases cs <;> cases h <;> rfl
  | cons l letters ih =>
    cases cs with
    | nil => cases h
    | cons c cs =>
      rw [word] at h
      split at h
      · obtain ⟨q, hq, rfl⟩ := map_eq_ok_iff.1 h
        have hvalue := ih hq
        exact hvalue
      · cases h

/-- A word is no object. -/
theorem ne_object_of_word {v : Json} {letters cs : List Char} {n : Nat}
    {hn : cs.length + 1 ≤ n} {p : Parsed Json n} {fs : List (String × Json)}
    (h : (word v letters cs).map (·.widen hn) = .ok p) (hv : ∀ fs, v ≠ .object fs) :
    p.value ≠ .object fs := by
  obtain ⟨q, hq, rfl⟩ := map_eq_ok_iff.1 h
  have hvalue := value_of_word hq
  exact fun hp => hv fs (hvalue.symm.trans hp)

/-- An object is made of fields that were read. -/
theorem exists_fields_of_value {depth : Nat} {cs : List Char} {p : Parsed Json cs.length}
    {fs : List (String × Json)} (h : value depth cs = .ok p) (hp : p.value = .object fs) :
    ∃ text, ∃ q : Parsed (List (String × Json)) text.length,
      fields (depth - 1) true text = .ok q ∧ fs = Fields.ofList q.value := by
  rw [value] at h
  split at h
  · cases h
  -- a value begins with a letter of a word, with a digit or `-`, with a quote, or with a bracket
  split at h
  · exact absurd hp (ne_object_of_word h (by simp))
  split at h
  · exact absurd hp (ne_object_of_word h (by simp))
  split at h
  · exact absurd hp (ne_object_of_word h (by simp))
  split at h
  · obtain ⟨q, -, rfl⟩ := map_eq_ok_iff.1 h
    cases hp
  split at h
  · obtain ⟨q, -, rfl⟩ := map_eq_ok_iff.1 h
    cases hp
  split at h
  · obtain ⟨q, -, rfl⟩ := map_eq_ok_iff.1 h
    cases hp
  split at h
  · split at h
    · cases h
    · obtain ⟨q, -, rfl⟩ := map_eq_ok_iff.1 h
      cases hp
  split at h
  · split at h
    · cases h
    · obtain ⟨q, hq, rfl⟩ := map_eq_ok_iff.1 h
      cases hp
      exact ⟨_, q, hq, rfl⟩
  · cases h

/-- **The fields of an object that is read stand in order, and their values are read too.** -/
theorem IsRead.object {fs : List (String × Json)} (h : (object fs).IsRead) :
    Fields.Sorted fs ∧ ∀ f ∈ fs, f.2.IsRead := by
  obtain ⟨depth, cs, p, hvalue, hp⟩ := h
  obtain ⟨text, q, hq, rfl⟩ := exists_fields_of_value hvalue hp
  refine ⟨Fields.sorted_ofList q.value, fun f hf => ?_⟩
  exact isRead_of_fields hq f (Fields.mem_of_mem_ofList hf)

theorem isRead_of_read {source : String} {v : Json} (h : read source = .ok v) : v.IsRead := by
  obtain ⟨p, hp, h⟩ := bind_eq_ok_iff.1 (mapError_eq_ok_iff.1 h)
  obtain ⟨-, -, h⟩ := bind_eq_ok_iff.1 h
  cases h
  exact ⟨_, _, p, hp, rfl⟩

end Json

end Stencil
