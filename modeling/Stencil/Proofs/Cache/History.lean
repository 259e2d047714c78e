import Mathlib
import Stencil.Proofs.Cache

/-!
# What a history leaves in a cache

A history is a sequence of calls on a new cache, each of which looks a template up or clears the
cache. It determines what the cache holds and counts. The entries are the first templates, as many
as there is room for, that were looked up since the cache was last cleared and that parse, each
taken once; a look-up is a hit exactly if its template is one of these; and every look-up is
counted, as a hit or as a miss, from the first one on, as far as 64 bits go (`run_determined`).

Digests need to tell apart only the templates that the history looks up.
-/

namespace Stencil

namespace Cache

/-! ### Histories -/

/-- A call on a cache. -/
inductive Call where
  /-- A template is looked up under a nesting limit. -/
  | get (limit : Nat) (source : String)
  /-- The cache is cleared. -/
  | clear
  deriving DecidableEq

/-- What a call looks up. -/
def Call.template? : Call → Option (Nat × String)
  | .get limit source => some (limit, source)
  | .clear => none

/-- What the calls of a history look up, in their order. -/
def lookUps (calls : List Call) : List (Nat × String) := calls.filterMap Call.template?

/-- The calls since the cache was last cleared, or since it was made. -/
def sinceClear (calls : List Call) : List Call := calls.rtakeWhile (· ≠ .clear)

/-- Whether a template parses under a limit. -/
def parses (t : Nat × String) : Bool := (Document.parse t.1 t.2).isOk

/-- The first templates that a history looks up after the last clear and that parse, without
repetition. -/
def firstParsed (capacity : Nat) (calls : List Call) : List (Nat × String) :=
  ((lookUps (sinceClear calls)).filter parses).eraseDups.take capacity

/-- The cache after a call. -/
def apply (c : Cache) : Call → Cache
  | .get limit source => (c.get limit source).2
  | .clear => c.clear

/-- The cache after the calls of a history. -/
def run (c : Cache) (calls : List Call) : Cache := calls.foldl apply c

/-- The templates that are kept, each with its limit. -/
def stored (c : Cache) : List (Nat × String) := c.entries.map fun e => (e.limit, e.source)

/-- What is kept, each template with its limit and its document. -/
def contents (c : Cache) : List ((Nat × String) × Except ParseError Document) :=
  c.entries.map fun e => ((e.limit, e.source), .ok e.document)

/-- Every template is kept with the document that parsing gives. -/
theorem contents_eq (c : Cache) :
    c.contents = c.stored.map fun t => (t, Document.parse t.1 t.2) := by
  rw [contents, stored, List.map_map]
  exact List.map_congr_left fun e _ => by rw [Function.comp_apply, e.parse_eq]

theorem stored_eq (c : Cache) : c.stored = c.contents.map Prod.fst := by
  rw [contents_eq, List.map_map]
  exact (List.map_id _).symm

@[simp] theorem stored_withDigest (digest : List UInt8 → List UInt8) (capacity : Nat) :
    (withDigest digest capacity).stored = [] := rfl

@[simp] theorem stored_clear (c : Cache) : c.clear.stored = [] := rfl

theorem run_concat (c : Cache) (calls : List Call) (call : Call) :
    c.run (calls ++ [call]) = (c.run calls).apply call := List.foldl_concat ..

theorem lookUps_concat (calls : List Call) (call : Call) :
    lookUps (calls ++ [call]) = lookUps calls ++ call.template?.toList := by
  rw [lookUps, List.filterMap_append, lookUps]
  cases call <;> rfl

theorem lookUps_subset {calls calls' : List Call} (h : calls <+: calls') :
    lookUps calls ⊆ lookUps calls' := (h.sublist.filterMap Call.template?).subset

/-! ### The first templates -/

/-- One more element is the last of the first distinct ones if it is none of them and they are not
as many as there may be. -/
theorem take_eraseDups_concat {α : Type} [BEq α] [LawfulBEq α] (n : Nat) (xs : List α) (x : α) :
    (xs ++ [x]).eraseDups.take n =
      if x ∈ xs.eraseDups.take n ∨ n ≤ (xs.eraseDups.take n).length
      then xs.eraseDups.take n else xs.eraseDups.take n ++ [x] := by
  rw [List.eraseDups_append]
  by_cases hx : x ∈ xs
  · have hold : [x].removeAll xs = [] := by simp [List.removeAll, hx]
    rw [hold, List.eraseDups_nil, List.append_nil, if_pos]
    -- all distinct ones are taken, or as many as there may be
    rw [or_iff_not_imp_right, Nat.not_le]
    intro hlt
    rw [List.length_take] at hlt
    rw [List.take_of_length_le (by omega), List.mem_eraseDups]
    exact hx
  · have hnew : [x].removeAll xs = [x] := by simp [List.removeAll, hx]
    have hnot : x ∉ xs.eraseDups.take n := fun h =>
      hx (List.mem_eraseDups.1 (List.mem_of_mem_take h))
    have hone : [x].eraseDups = [x] := by simp [List.eraseDups_cons]
    rw [hnew, hone, List.length_take, List.take_append]
    by_cases hn : n ≤ xs.eraseDups.length
    · rw [if_pos (.inr (by omega)), Nat.sub_eq_zero_of_le hn, List.take_zero, List.append_nil]
    · rw [if_neg (not_or.2 ⟨hnot, by omega⟩), List.take_of_length_le (by omega),
        List.take_of_length_le (by rw [List.length_singleton]; omega)]

theorem firstParsed_clear (capacity : Nat) (calls : List Call) :
    firstParsed capacity (calls ++ [.clear]) = [] := by
  simp [firstParsed, sinceClear, lookUps]

/-- A look-up adds its template to the first ones if it is none of them, there is room, and it
parses. -/
theorem firstParsed_get (capacity : Nat) (calls : List Call) (limit : Nat) (source : String) :
    firstParsed capacity (calls ++ [.get limit source]) =
      if (limit, source) ∈ firstParsed capacity calls ∨
          capacity ≤ (firstParsed capacity calls).length ∨ ¬parses (limit, source)
      then firstParsed capacity calls
      else firstParsed capacity calls ++ [(limit, source)] := by
  have hsince : sinceClear (calls ++ [.get limit source]) =
      sinceClear calls ++ [.get limit source] := List.rtakeWhile_concat_pos _ _ _ rfl
  rw [firstParsed, hsince, lookUps_concat, List.filter_append]
  by_cases hp : parses (limit, source)
  · have hone : (Call.get limit source).template?.toList.filter parses = [(limit, source)] := by
      simp [Call.template?, hp]
    rw [hone, take_eraseDups_concat]
    simp only [firstParsed, hp, not_true_eq_false, or_false]
  · have hnone : (Call.get limit source).template?.toList.filter parses = [] := by
      simp [Call.template?, hp]
    rw [hnone, List.append_nil, if_pos (.inr (.inr hp)), firstParsed]

/-! ### One call -/

section Call

variable {known : Nat → String → Prop} {c : Cache} {limit : Nat} {source : String}

/-- Among templates that digests tell apart, one is found exactly if it is kept. -/
theorem Sound.find?_isSome_iff (h : Sound known c) (hs : known limit source) :
    (c.find? limit source).isSome ↔ (limit, source) ∈ c.stored := by
  simp only [find?, List.find?_isSome, stored, List.mem_map, beq_iff_eq]
  refine exists_congr fun e => and_congr_right fun he => ?_
  constructor
  · intro hkey
    obtain ⟨hl, hsrc⟩ := h.eq_of_key_eq _ _ _ _ (h.known_of_mem e he) hs hkey
    rw [hl, hsrc]
  · intro heq
    cases heq
    rfl

/-- A look-up of a template that is kept is a hit. -/
theorem Sound.get_of_mem (h : Sound known c) (hs : known limit source)
    (hm : (limit, source) ∈ c.stored) :
    (c.get limit source).2 = { c with hits := tick c.hits } := by
  obtain ⟨e, he⟩ := Option.isSome_iff_exists.1 ((h.find?_isSome_iff hs).2 hm)
  rw [get, he]

theorem keep_stored (e : CacheEntry) :
    (c.keep e).stored =
      if c.capacity ≤ c.stored.length then c.stored else c.stored ++ [(e.limit, e.source)] := by
  rw [keep, stored, stored, List.length_map]
  by_cases hroom : c.entries.length < c.capacity
  · rw [if_pos hroom, if_neg (by omega), List.map_append]
    rfl
  · rw [if_neg hroom, if_pos (by omega)]

@[simp] theorem keep_hits (e : CacheEntry) : (c.keep e).hits = c.hits := by
  rw [keep]
  split <;> rfl

@[simp] theorem keep_misses (e : CacheEntry) : (c.keep e).misses = c.misses := by
  rw [keep]
  split <;> rfl

@[simp] theorem keep_capacity (e : CacheEntry) : (c.keep e).capacity = c.capacity := by
  rw [keep]
  split <;> rfl

/-- What a miss leaves: one more miss, and the template kept if it parses and there is room. -/
structure Missed (c : Cache) (limit : Nat) (source : String) (c' : Cache) : Prop where
  /-- No hit is counted. -/
  hits : c'.hits = c.hits
  /-- One miss is counted. -/
  misses : c'.misses = tick c.misses
  /-- The capacity is the same. -/
  capacity : c'.capacity = c.capacity
  /-- What parses is kept if there is room. -/
  stored : c'.stored = if c.capacity ≤ c.stored.length ∨ ¬parses (limit, source)
    then c.stored else c.stored ++ [(limit, source)]

/-- A look-up of a template that is not found is a miss. -/
theorem missed_get (hn : c.find? limit source = none) :
    Missed c limit source (c.get limit source).2 := by
  rw [get, hn]
  dsimp only
  split
  · next d hd =>
    have hp : parses (limit, source) := by
      rw [parses, hd]
      rfl
    refine ⟨by simp, by simp, by simp, ?_⟩
    rw [keep_stored]
    simp only [hp, not_true_eq_false, or_false]
    rfl
  · next e he =>
    have hp : ¬parses (limit, source) := by
      rw [parses, he]
      nofun
    exact ⟨rfl, rfl, rfl, by rw [if_pos (.inr hp)]; rfl⟩

theorem Sound.missed (h : Sound known c) (hs : known limit source)
    (hm : (limit, source) ∉ c.stored) : Missed c limit source (c.get limit source).2 := by
  refine missed_get ?_
  rw [← Option.not_isSome_iff_eq_none, h.find?_isSome_iff hs]
  exact hm

/-- A look-up adds its template to those that are kept if it is none of them, there is room, and it
parses. -/
theorem Sound.get_stored (h : Sound known c) (hs : known limit source) :
    (c.get limit source).2.stored =
      if (limit, source) ∈ c.stored ∨ c.capacity ≤ c.stored.length ∨ ¬parses (limit, source)
      then c.stored else c.stored ++ [(limit, source)] := by
  by_cases hm : (limit, source) ∈ c.stored
  · rw [h.get_of_mem hs hm, if_pos (.inl hm)]
    rfl
  · rw [(h.missed hs hm).stored]
    simp only [hm, false_or]

/-- A look-up is counted as a hit if its template is kept, and as a miss if not. -/
theorem Sound.get_counts (h : Sound known c) (hs : known limit source) :
    (c.get limit source).2.hits = (if (limit, source) ∈ c.stored then tick c.hits else c.hits) ∧
      (c.get limit source).2.misses =
        if (limit, source) ∈ c.stored then c.misses else tick c.misses := by
  by_cases hm : (limit, source) ∈ c.stored
  · rw [h.get_of_mem hs hm, if_pos hm, if_pos hm]
    exact ⟨rfl, rfl⟩
  · rw [(h.missed hs hm).hits, (h.missed hs hm).misses, if_neg hm, if_neg hm]
    exact ⟨rfl, rfl⟩

theorem apply_capacity (call : Call) : (c.apply call).capacity = c.capacity := by
  cases call with
  | clear => rfl
  | get limit source =>
    cases hf : c.find? limit source with
    | some e => rw [apply, get, hf]
    | none => exact (missed_get hf).capacity

/-- Every look-up is counted once, whatever it finds. -/
theorem apply_counts (call : Call) :
    call.template? = none ∧ (c.apply call).hits = c.hits ∧ (c.apply call).misses = c.misses ∨
      ∃ t, call.template? = some t ∧
        ((c.apply call).hits = tick c.hits ∧ (c.apply call).misses = c.misses ∨
          (c.apply call).hits = c.hits ∧ (c.apply call).misses = tick c.misses) := by
  cases call with
  | clear => exact .inl ⟨rfl, rfl, rfl⟩
  | get limit source =>
    refine .inr ⟨_, rfl, ?_⟩
    cases hf : c.find? limit source with
    | some e =>
      rw [apply, get, hf]
      exact .inl ⟨rfl, rfl⟩
    | none => exact .inr ⟨(missed_get hf).hits, (missed_get hf).misses⟩

theorem Sound.apply {call : Call} (h : Sound known c)
    (hs : ∀ t ∈ call.template?, known t.1 t.2) : Sound known (c.apply call) := by
  cases call with
  | clear => exact h.clear
  | get limit source => exact h.get_snd (hs (limit, source) rfl)

end Call

/-! ### Whole histories -/

section Run

variable {known : Nat → String → Prop} {c : Cache} {calls : List Call}

theorem run_capacity (c : Cache) (calls : List Call) : (c.run calls).capacity = c.capacity := by
  induction calls using List.reverseRecOn with
  | nil => rfl
  | append_singleton calls call ih => rw [run_concat, apply_capacity, ih]

theorem tick_eq_of_lt {n : Nat} (h : n + 1 < UInt64.size) : tick n = n + 1 := Nat.mod_eq_of_lt h

/-- Counts are numbers of 64 bits. -/
theorem run_counts_lt (h : c.hits < UInt64.size ∧ c.misses < UInt64.size) (calls : List Call) :
    (c.run calls).hits < UInt64.size ∧ (c.run calls).misses < UInt64.size := by
  have htick (n : Nat) : tick n < UInt64.size := Nat.mod_lt _ (by decide)
  induction calls using List.reverseRecOn with
  | nil => exact h
  | append_singleton calls call ih =>
    rw [run_concat]
    obtain ⟨-, hh, hm⟩ | ⟨-, -, ⟨hh, hm⟩ | ⟨hh, hm⟩⟩ := (c.run calls).apply_counts call
    · exact ⟨hh ▸ ih.1, hm ▸ ih.2⟩
    · exact ⟨hh ▸ htick _, hm ▸ ih.2⟩
    · exact ⟨hh ▸ ih.1, hm ▸ htick _⟩

/-- The counts are together the number of the look-ups, as far as 64 bits go. -/
theorem run_counts_modEq (c : Cache) (calls : List Call) :
    (c.run calls).hits + (c.run calls).misses ≡ c.hits + c.misses + (lookUps calls).length
      [MOD UInt64.size] := by
  have htick (n : Nat) : tick n ≡ n + 1 [MOD UInt64.size] := Nat.mod_modEq _ _
  induction calls using List.reverseRecOn with
  | nil => rfl
  | append_singleton calls call ih =>
    rw [run_concat, lookUps_concat, List.length_append, ← Nat.add_assoc]
    obtain ⟨ht, hh, hm⟩ | ⟨t, ht, ⟨hh, hm⟩ | ⟨hh, hm⟩⟩ := (c.run calls).apply_counts call
    · rw [ht, hh, hm]
      exact ih
    · rw [ht, hh, hm]
      refine ((htick _).add_right _).trans ?_
      rw [Nat.add_right_comm]
      exact ih.add_right 1
    · rw [ht, hh, hm]
      exact ((htick _).add_left _).trans (ih.add_right 1)

/-- If 64 bits hold it, they are together the number of the look-ups. -/
theorem run_counts (h : c.hits + c.misses + (lookUps calls).length < UInt64.size) :
    (c.run calls).hits + (c.run calls).misses = c.hits + c.misses + (lookUps calls).length := by
  induction calls using List.reverseRecOn with
  | nil => rfl
  | append_singleton calls call ih =>
    rw [lookUps_concat, List.length_append, ← Nat.add_assoc] at h
    have ih := ih (Nat.lt_of_le_of_lt (Nat.le_add_right ..) h)
    rw [run_concat, lookUps_concat, List.length_append, ← Nat.add_assoc]
    obtain ⟨ht, hh, hm⟩ | ⟨t, ht, ⟨hh, hm⟩ | ⟨hh, hm⟩⟩ := (c.run calls).apply_counts call
    · rw [ht, hh, hm]
      exact ih
    · rw [ht, ← ih, Option.toList_some, List.length_singleton] at h
      rw [ht, hh, hm, tick_eq_of_lt (by omega), ← ih, Nat.add_right_comm]
      rfl
    · rw [ht, ← ih, Option.toList_some, List.length_singleton] at h
      rw [ht, hh, hm, tick_eq_of_lt (by omega), ← ih]
      rfl

theorem Sound.run (h : Sound known c) (hs : ∀ t ∈ lookUps calls, known t.1 t.2) :
    Sound known (c.run calls) := by
  induction calls using List.reverseRecOn with
  | nil => exact h
  | append_singleton calls call ih =>
    rw [lookUps_concat] at hs
    rw [run_concat]
    refine (ih fun t ht => hs t (List.mem_append_left _ ht)).apply fun t ht => ?_
    exact hs t (List.mem_append_right _ (Option.mem_toList.2 ht))

/-- **A cache that starts with nothing keeps the first templates that its history looks up and that
parse.** -/
theorem Sound.stored_run (h : Sound known c) (hs : ∀ t ∈ lookUps calls, known t.1 t.2)
    (hc : c.stored = []) : (c.run calls).stored = firstParsed c.capacity calls := by
  induction calls using List.reverseRecOn with
  | nil =>
    rw [show c.run [] = c from rfl, hc]
    simp [firstParsed, sinceClear, lookUps]
  | append_singleton calls call ih =>
    rw [lookUps_concat] at hs
    have hbefore : ∀ t ∈ lookUps calls, known t.1 t.2 := fun t ht =>
      hs t (List.mem_append_left _ ht)
    rw [run_concat]
    cases call with
    | clear => rw [firstParsed_clear, Cache.apply, stored_clear]
    | get limit source =>
      have hlast : known limit source := hs (limit, source) (by simp [Call.template?])
      rw [firstParsed_get, Cache.apply, (h.run hbefore).get_stored hlast, ih hbefore, run_capacity]

end Run

/-- **A history determines what a cache holds and counts.** The digests tell apart the byte strings
of the templates that are looked up. Then the cache holds exactly the first templates, as many as
its capacity, that were looked up since the last clear and parse, each with its document. Each
look-up answers what parsing answers, and is a hit exactly if its template was kept just before it;
hits and misses are together as many as the look-ups, and clearing changes neither. All counts are
of 64 bits, and start again at zero after that. -/
theorem run_determined {digest : List UInt8 → List UInt8} {capacity : Nat} {calls : List Call}
    (hlimit : ∀ t ∈ lookUps calls, t.1 < UInt64.size)
    (hdigest : ∀ t ∈ lookUps calls, ∀ u ∈ lookUps calls,
      digest (keyBytes t.1 t.2) = digest (keyBytes u.1 u.2) →
      keyBytes t.1 t.2 = keyBytes u.1 u.2) :
    let after (calls : List Call) : Cache := run (withDigest digest capacity) calls
    (after calls).contents =
        (firstParsed capacity calls).map (fun t => (t, Document.parse t.1 t.2)) ∧
      (after calls).size ≤ capacity ∧
      ((after calls).hits + (after calls).misses) % UInt64.size =
        (lookUps calls).length % UInt64.size ∧
      ((lookUps calls).length < UInt64.size →
        (after calls).hits + (after calls).misses = (lookUps calls).length) ∧
      (∀ before limit source, before ++ [.get limit source] <+: calls →
        ((after before).get limit source).1 = Document.parse limit source ∧
        (after (before ++ [.get limit source])).hits = ((after before).hits +
          if (limit, source) ∈ (after before).stored then 1 else 0) % UInt64.size ∧
        (after (before ++ [.get limit source])).misses = ((after before).misses +
          if (limit, source) ∈ (after before).stored then 0 else 1) % UInt64.size) ∧
      ∀ before, before ++ [.clear] <+: calls →
        (after (before ++ [.clear])).hits = (after before).hits ∧
        (after (before ++ [.clear])).misses = (after before).misses := by
  intro after
  have hsound : Sound (fun limit source => (limit, source) ∈ lookUps calls)
      (withDigest digest capacity) :=
    sound_withDigest capacity fun _ _ _ _ ht hu hkey =>
      keyBytes_inj (hlimit _ ht) (hlimit _ hu) (hdigest _ ht _ hu hkey)
  have hstored : (after calls).stored = firstParsed capacity calls :=
    hsound.stored_run (fun _ ht => ht) (stored_withDigest digest capacity)
  have hzero : 0 < UInt64.size := by decide
  have hstep (before : List Call) (call : Call) :
      after (before ++ [call]) = (after before).apply call := run_concat ..
  refine ⟨?_, ?_, ?_, fun hlt => ?_, fun before limit source hpre => ?_, fun before _ => ?_⟩
  · rw [contents_eq, hstored]
  · rw [size, ← List.length_map, ← stored, hstored, firstParsed]
    exact List.length_take_le ..
  · have hmod := run_counts_modEq (withDigest digest capacity) calls
    rwa [withDigest, Nat.zero_add, Nat.zero_add] at hmod
  · have hcounts := @run_counts (withDigest digest capacity) calls
    rw [withDigest, Nat.zero_add, Nat.zero_add] at hcounts
    exact hcounts hlt
  · have hsub := lookUps_subset hpre
    rw [lookUps_concat] at hsub
    have hbefore : Sound _ (after before) :=
      hsound.run fun t ht => hsub (List.mem_append_left _ ht)
    have hlast : (limit, source) ∈ lookUps calls := hsub (by simp [Call.template?])
    obtain ⟨hh, hm⟩ := hbefore.get_counts hlast
    obtain ⟨hhlt, hmlt⟩ := @run_counts_lt (withDigest digest capacity) ⟨hzero, hzero⟩ before
    refine ⟨hbefore.get_fst hlast, ?_⟩
    rw [hstep, Cache.apply, hh, hm]
    split
    · exact ⟨rfl, (Nat.mod_eq_of_lt hmlt).symm⟩
    · exact ⟨(Nat.mod_eq_of_lt hhlt).symm, rfl⟩
  · rw [hstep]
    exact ⟨rfl, rfl⟩

/-- A cache for one template: what does not parse is not kept, what does not fit in is not kept,
and after a clear the first template is another one. The digests of the three keys are those of
SHA-256. -/
theorem run_determined_one_place :
    let digest (bytes : List UInt8) : List UInt8 :=
      if bytes = keyBytes 1 "[[" then
        littleEndian 32 0x8223651a16f1a70e68e32ab4dedfb9ddce3071d6d1e1f026b208c38aa55da7ed
      else if bytes = keyBytes 1 "a" then
        littleEndian 32 0x8184ad084cd5f19b5e0c851f541580129d79eb2321813d4cf655a58bc82161ae
      else if bytes = keyBytes 2 "a" then
        littleEndian 32 0x782cbfbd420c44ace0ff2e088ded452c40c44e50a41d456f413544e134c34811
      else bytes
    let calls : List Call := [.get 1 "[[", .get 1 "a", .get 2 "a", .get 1 "a", .clear, .get 2 "a"]
    let after (calls : List Call) : Cache := run (withDigest digest 1) calls
    (∀ t ∈ lookUps calls, t.1 < UInt64.size) ∧
      (after calls).contents = [((2, "a"), Document.parse 2 "a")] ∧
      (after calls).hits + (after calls).misses = 5 ∧
      (after (calls.take 4)).hits = ((after (calls.take 3)).hits + 1) % UInt64.size := by
  intro digest calls after
  have hlimit : ∀ t ∈ lookUps calls, t.1 < UInt64.size := by decide
  have hdigest : ∀ t ∈ lookUps calls, ∀ u ∈ lookUps calls,
      digest (keyBytes t.1 t.2) = digest (keyBytes u.1 u.2) →
      keyBytes t.1 t.2 = keyBytes u.1 u.2 := by decide
  obtain ⟨hcontents, -, -, hcounts, hget, -⟩ := @run_determined digest 1 calls hlimit hdigest
  have hfirst : firstParsed 1 calls = [(2, "a")] := by cbv
  have hthree : (1, "a") ∈ (after (calls.take 3)).stored := by
    rw [stored_eq, (@run_determined digest 1 (calls.take 3) (by decide) (by decide)).1,
      show firstParsed 1 (calls.take 3) = [(1, "a")] by cbv]
    exact List.mem_singleton_self _
  refine ⟨hlimit, ?_, hcounts (by decide), ?_⟩
  · rw [hcontents, hfirst]
    rfl
  · have hhit := (hget (calls.take 3) 1 "a" ⟨[.clear, .get 2 "a"], rfl⟩).2.1
    rwa [if_pos hthree] at hhit

end Cache

end Stencil
