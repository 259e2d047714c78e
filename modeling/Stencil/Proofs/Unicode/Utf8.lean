import Mathlib
import Stencil.Unicode.Utf8

/-!
# Reading UTF-8

What is written in UTF-8 is read back as it was, whatever follows it (`read_encode_append`). A byte
of ASCII is a character on its own wherever it stands, so what is before it and what is behind it
are read apart (`read_append_ascii`), also where either is no UTF-8.
-/

namespace Stencil

namespace Utf8

variable {c : Char} {cs ds : List Char} {b : UInt8} {bs : List UInt8} {p : Pending}

/-! ### Bytes of a text -/

@[simp] theorem encode_nil : encode [] = [] := rfl

@[simp] theorem encode_cons (c : Char) (cs : List Char) :
    encode (c :: cs) = String.utf8EncodeChar c ++ encode cs := List.flatMap_cons

@[simp] theorem encode_append (cs ds : List Char) :
    encode (cs ++ ds) = encode cs ++ encode ds := List.flatMap_append

/-! ### Steps of the reader -/

theorem readFrom_cons (pending : Option Pending) (b : UInt8) (bs : List UInt8) :
    readFrom pending (b :: bs) = (step pending b).1 ++ readFrom (step pending b).2 bs := rfl

theorem readFrom_first {n : Nat} (hlow : 0xC2 ≤ n) (hhigh : n ≤ 0xF4) (bs : List UInt8) :
    readFrom none (UInt8.ofNat n :: bs) = readFrom (some (.ofFirst n)) bs := by
  have hn : (UInt8.ofNat n).toNat = n :=
    UInt8.toNat_ofNat_of_lt' (Nat.lt_of_le_of_lt hhigh (by decide))
  rw [readFrom_cons, step, first, hn, if_neg (by omega), if_neg (by omega)]
  rfl

/-- A byte within the bounds goes on with the character. -/
theorem readFrom_next {n : Nat} (hlow : p.low ≤ n) (hhigh : n ≤ p.high) (bs : List UInt8) :
    readFrom (some p) (UInt8.ofNat n :: bs) =
      if p.owed ≤ 1 then Char.ofNat (p.spelled * 64 + (n - 0x80)) :: readFrom none bs
      else readFrom (some (.amid (p.owed - 1) (p.spelled * 64 + (n - 0x80)))) bs := by
  have hn : (UInt8.ofNat n).toNat = n :=
    UInt8.toNat_ofNat_of_lt' (Nat.lt_trans (Nat.lt_of_le_of_lt hhigh p.high_lt) (by decide))
  rw [readFrom_cons, step, Pending.next, hn]
  simp only [if_pos (And.intro hlow hhigh)]
  split <;> rfl

theorem readFrom_amid {owed spelled n : Nat} (hlow : 0x80 ≤ n) (hhigh : n ≤ 0xBF)
    (bs : List UInt8) :
    readFrom (some (.amid owed spelled)) (UInt8.ofNat n :: bs) =
      if owed ≤ 1 then Char.ofNat (spelled * 64 + (n - 0x80)) :: readFrom none bs
      else readFrom (some (.amid (owed - 1) (spelled * 64 + (n - 0x80)))) bs :=
  readFrom_next hlow hhigh bs

/-- **A character is read from its bytes**, whatever follows them. -/
theorem readFrom_encodeChar_append (c : Char) (bs : List UInt8) :
    readFrom none (String.utf8EncodeChar c ++ bs) = c :: readFrom none bs := by
  have hvalid : c.toNat < 0xD800 ∨ 0xDFFF < c.toNat ∧ c.toNat < 0x110000 := c.valid
  have hback {n : Nat} (hn : n = c.toNat) : Char.ofNat n = c := by rw [hn, Char.ofNat_toNat]
  unfold String.utf8EncodeChar
  simp only [show c.val.toNat = c.toNat from rfl]
  split_ifs with h1 h2 h3
  · rw [List.singleton_append, readFrom_cons, step, first, UInt8.toNat_ofNat', if_pos (by omega),
      hback (by omega)]
    rfl
  · rw [List.cons_append, List.singleton_append, readFrom_first (by omega) (by omega),
      readFrom_next, if_pos, hback]
    all_goals
      simp only [Pending.ofFirst]
      split_ifs <;> omega
  · rw [List.cons_append, List.cons_append, List.singleton_append,
      readFrom_first (by omega) (by omega), readFrom_next, if_neg,
      readFrom_amid (by omega) (by omega), if_pos, hback]
    all_goals
      simp only [Pending.ofFirst]
      split_ifs <;> omega
  · rw [List.cons_append, List.cons_append, List.cons_append, List.singleton_append,
      readFrom_first (by omega) (by omega), readFrom_next, if_neg,
      readFrom_amid (by omega) (by omega), if_neg, readFrom_amid (by omega) (by omega), if_pos,
      hback]
    all_goals
      simp only [Pending.ofFirst]
      split_ifs <;> omega

/-! ### Reading back -/

/-- **A text is read back from its bytes**, whatever follows them. -/
theorem read_encode_append (cs : List Char) (bs : List UInt8) :
    read (encode cs ++ bs) = cs ++ read bs := by
  induction cs with
  | nil => rfl
  | cons c cs ih =>
    rw [encode_cons, List.append_assoc, read, readFrom_encodeChar_append, List.cons_append, ← ih,
      read]

@[simp] theorem read_encode (cs : List Char) : read (encode cs) = cs := by
  have h := read_encode_append cs []
  rwa [List.append_nil, show read [] = [] from rfl, List.append_nil] at h

theorem encode_injective : Function.Injective encode :=
  Function.LeftInverse.injective read_encode

/-! ### Bytes of ASCII -/

/-- A byte of ASCII is a character on its own, and breaks off one that is owed bytes. -/
theorem readFrom_ascii_cons {n : Nat} (hn : n ≤ 0x7F) (pending : Option Pending)
    (bs : List UInt8) :
    readFrom pending (UInt8.ofNat n :: bs) = readFrom pending [] ++ Char.ofNat n :: read bs := by
  have hb : (UInt8.ofNat n).toNat = n :=
    UInt8.toNat_ofNat_of_lt' (Nat.lt_of_le_of_lt hn (by decide))
  have hfirst : first (UInt8.ofNat n) = ([Char.ofNat n], none) := by
    rw [first, hb, if_pos hn]
  cases pending with
  | none =>
    rw [readFrom_cons, step, hfirst]
    rfl
  | some p =>
    have := p.ascii_lt
    rw [readFrom_cons, step, hb]
    simp only [hfirst, if_neg (show ¬ (p.low ≤ n ∧ n ≤ p.high) by omega)]
    rfl

/-- **What is before a byte of ASCII and what is behind it are read apart.** -/
theorem read_append_ascii {n : Nat} (hn : n ≤ 0x7F) (as bs : List UInt8) :
    read (as ++ UInt8.ofNat n :: bs) = read as ++ Char.ofNat n :: read bs := by
  have h (pending : Option Pending) : readFrom pending (as ++ UInt8.ofNat n :: bs) =
      readFrom pending as ++ Char.ofNat n :: read bs := by
    induction as generalizing pending with
    | nil => exact readFrom_ascii_cons hn pending bs
    | cons a as ih => rw [List.cons_append, readFrom_cons, ih, readFrom_cons, List.append_assoc]
  exact h none

example : read [0xE2, 0x82, 0x41, 0xFF] = ['\uFFFD', 'A', '\uFFFD'] := by decide

/-- Among the bytes of a character there is one of ASCII only if it is that character. -/
theorem eq_of_ascii_mem_encodeChar {n : Nat} (hn : n ≤ 0x7F)
    (h : UInt8.ofNat n ∈ String.utf8EncodeChar c) : c = Char.ofNat n := by
  have hback {m : Nat} (hm : c.toNat = m) : c = Char.ofNat m := by rw [← hm, Char.ofNat_toNat]
  unfold String.utf8EncodeChar at h
  simp only [show c.val.toNat = c.toNat from rfl] at h
  split_ifs at h <;> simp only [List.mem_cons, List.not_mem_nil, or_false, ← UInt8.toNat_inj,
    UInt8.toNat_ofNat'] at h
  · exact hback (by omega)
  all_goals omega

theorem ascii_mem_encode_iff {n : Nat} (hn : n ≤ 0x7F) :
    UInt8.ofNat n ∈ encode cs ↔ Char.ofNat n ∈ cs := by
  rw [encode, List.mem_flatMap]
  constructor
  · rintro ⟨c, hc, h⟩
    exact eq_of_ascii_mem_encodeChar hn h ▸ hc
  · refine fun h => ⟨_, h, ?_⟩
    have hc : (Char.ofNat n).toNat = n := by rw [Char.toNat_ofNat, if_pos (.inl (by omega))]
    rw [String.utf8EncodeChar, show (Char.ofNat n).val.toNat = n from hc, if_pos hn]
    exact List.mem_singleton_self _

end Utf8

end Stencil
