import Mathlib.Algebra.Group.Nat.Defs
import Mathlib.Data.List.Basic
import Stencil.Cache

/-!
# What a cache answers

The bytes that a digest is taken of tell apart any two templates and any two nesting limits, as
long as a limit has no more than 64 bits (`keyBytes_inj`). A cache that holds only templates whose
digests differ answers for each of them what parsing would answer, and what it keeps after that is
again one of them (`get_fst`, `Sound.get`).
-/

namespace Stencil

namespace Cache

/-! ### The bytes of a key -/

theorem length_littleEndian (width n : Nat) : (littleEndian width n).length = width := by
  induction width generalizing n with
  | zero => rfl
  | succ width ih => rw [littleEndian, List.length_cons, ih]

theorem littleEndian_inj {width a b : Nat} (ha : a < 256 ^ width) (hb : b < 256 ^ width)
    (h : littleEndian width a = littleEndian width b) : a = b := by
  induction width generalizing a b with
  | zero => omega
  | succ width ih =>
    rw [littleEndian, littleEndian, List.cons.injEq] at h
    have hlow : a % 256 = b % 256 := by
      have := congrArg UInt8.toNat h.1
      simpa using this
    have hhigh : a / 256 = b / 256 := by
      refine ih ?_ ?_ h.2
      · exact Nat.div_lt_of_lt_mul (by rwa [Nat.pow_succ, Nat.mul_comm] at ha)
      · exact Nat.div_lt_of_lt_mul (by rwa [Nat.pow_succ, Nat.mul_comm] at hb)
    omega

theorem keyBytes_inj {limit limit' : Nat} {source source' : String} (hl : limit < UInt64.size)
    (hl' : limit' < UInt64.size) (h : keyBytes limit source = keyBytes limit' source') :
    limit = limit' ∧ source = source' := by
  obtain ⟨hlimit, hsource⟩ := List.append_inj h (by rw [length_littleEndian, length_littleEndian])
  refine ⟨littleEndian_inj (by simpa using hl) (by simpa using hl') hlimit, ?_⟩
  rw [← String.toByteArray_inj]
  exact ByteArray.ext (Array.toList_inj.1 hsource)

/-! ### Look-ups -/

/-- The templates in a cache are among those that `known` tells, and these have different
digests. -/
structure Sound (known : Nat → String → Prop) (c : Cache) : Prop where
  /-- What is kept is known. -/
  known_of_mem : ∀ e ∈ c.entries, known e.limit e.source
  /-- What is known is told apart. -/
  eq_of_key_eq : ∀ limit source limit' source', known limit source → known limit' source' →
    c.key limit source = c.key limit' source' → limit = limit' ∧ source = source'

variable {known : Nat → String → Prop} {c : Cache} {limit : Nat} {source : String}

theorem sound_withDigest {digest : List UInt8 → List UInt8} (capacity : Nat)
    (h : ∀ limit source limit' source', known limit source → known limit' source' →
      digest (keyBytes limit source) = digest (keyBytes limit' source') →
      limit = limit' ∧ source = source') :
    Sound known (withDigest digest capacity) :=
  ⟨by simp [withDigest], h⟩

theorem Sound.clear (h : Sound known c) : Sound known c.clear :=
  ⟨by simp [Cache.clear], h.eq_of_key_eq⟩

theorem Sound.keep (h : Sound known c) {e : CacheEntry} (he : known e.limit e.source) :
    Sound known (c.keep e) := by
  unfold Cache.keep
  split
  · refine ⟨fun e' he' => ?_, h.eq_of_key_eq⟩
    rcases List.mem_append.1 he' with he' | he'
    · exact h.known_of_mem e' he'
    · rw [List.mem_singleton.1 he']
      exact he
  · exact h

/-- **A look-up of a known template answers what parsing answers.** -/
theorem Sound.get_fst (h : Sound known c) (hs : known limit source) :
    (c.get limit source).1 = Document.parse limit source := by
  unfold Cache.get
  split
  · next e he =>
    have hkey := List.find?_some he
    have hmem := List.mem_of_find?_eq_some he
    obtain ⟨hl, hsrc⟩ := h.eq_of_key_eq _ _ _ _ (h.known_of_mem e hmem) hs (by simpa using hkey)
    rw [← hl, ← hsrc]
    exact e.parse_eq.symm
  · dsimp only
    split
    · next hp => exact hp.symm
    · next hp => exact hp.symm

theorem Sound.get_snd (h : Sound known c) (hs : known limit source) :
    Sound known (c.get limit source).2 := by
  have hc : ∀ hits misses, Sound known { c with hits := hits, misses := misses } := fun _ _ =>
    ⟨h.known_of_mem, h.eq_of_key_eq⟩
  unfold Cache.get
  split
  · exact hc _ _
  · dsimp only
    split
    · exact (hc _ _).keep hs
    · exact hc _ _

theorem lookUp_none (limit : Nat) (source : String) :
    lookUp none limit source = (Document.parse limit source, none) := rfl

/-- A cache, if there is one, that answers right for what is known. -/
def SoundIfAny (known : Nat → String → Prop) (cache : Option Cache) : Prop :=
  ∀ c ∈ cache, Sound known c

/-- **With or without a cache, a look-up of a known template answers what parsing answers.** -/
theorem SoundIfAny.lookUp_fst {cache : Option Cache} (h : SoundIfAny known cache)
    (hs : known limit source) :
    (lookUp cache limit source).1 = Document.parse limit source := by
  cases cache with
  | none => rfl
  | some c => exact (h c rfl).get_fst hs

theorem SoundIfAny.lookUp_snd {cache : Option Cache} (h : SoundIfAny known cache)
    (hs : known limit source) :
    SoundIfAny known (lookUp cache limit source).2 := by
  cases cache with
  | none => exact h
  | some c =>
    intro c' hc'
    cases hc'
    exact (h c rfl).get_snd hs

theorem SoundIfAny.clear {cache : Option Cache} (h : SoundIfAny known cache) :
    SoundIfAny known (cache.map Cache.clear) := by
  cases cache with
  | none => exact h
  | some c =>
    intro c' hc'
    cases hc'
    exact (h c rfl).clear

end Cache

end Stencil
