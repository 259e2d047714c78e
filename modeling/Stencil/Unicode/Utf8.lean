/-!
# UTF-8

A text is written as bytes in UTF-8, and bytes are read as text again character by character.
Bytes that are no UTF-8 can be read too, with a loss: where bytes begin a character that does not
go on, or can begin none, one replacement character stands for them.

The reader takes one byte after the other. In the middle of a character it knows how many bytes are
owed and between which bounds the next of them has to be: the bounds of a second byte leave out
what a shorter character could have said, the surrogates, and what lies beyond the last character.
-/

namespace Stencil

namespace Utf8

/-- The bytes of a text. -/
def encode (cs : List Char) : List UInt8 := cs.flatMap String.utf8EncodeChar

/-- What stands for bytes that are no character. -/
def replacement : Char := '\uFFFD'

/-- The beginning of a character that has to go on. -/
structure Pending where
  /-- How many bytes are owed. -/
  owed : Nat
  /-- The least that the next byte can be. -/
  low : Nat
  /-- The greatest that the next byte can be. -/
  high : Nat
  /-- The number that the bytes so far spell. -/
  spelled : Nat
  /-- No byte but the first is one of ASCII, -/
  ascii_lt : 0x7F < low
  /-- or one that begins a character. -/
  high_lt : high < 0xC0

/-- The beginning of a character of more than one byte, from its first. -/
def Pending.ofFirst (n : Nat) : Pending where
  owed := if n < 0xE0 then 1 else if n < 0xF0 then 2 else 3
  low := if n = 0xE0 then 0xA0 else if n = 0xF0 then 0x90 else 0x80
  high := if n = 0xED then 0x9F else if n = 0xF4 then 0x8F else 0xBF
  spelled := if n < 0xE0 then n - 0xC0 else if n < 0xF0 then n - 0xE0 else n - 0xF0
  ascii_lt := by
    split
    · decide
    · split <;> decide
  high_lt := by
    split
    · decide
    · split <;> decide

/-- A character in the middle of which any byte that begins none can come. -/
def Pending.amid (owed spelled : Nat) : Pending := ⟨owed, 0x80, 0xBF, spelled, by decide, by decide⟩

/-- What is read of one byte, and the character that it leaves to go on. -/
abbrev Reading := List Char × Option Pending

/-- Reads a byte between two characters. -/
def first (b : UInt8) : Reading :=
  let n := b.toNat
  if n ≤ 0x7F then ([Char.ofNat n], none)
  else if n < 0xC2 ∨ 0xF4 < n then ([replacement], none)
  else ([], some (.ofFirst n))

/-- Reads a byte that goes on with a character. -/
def Pending.next (p : Pending) (b : UInt8) : Reading :=
  let spelled := p.spelled * 64 + (b.toNat - 0x80)
  if p.owed ≤ 1 then ([Char.ofNat spelled], none)
  else ([], some (.amid (p.owed - 1) spelled))

/-- Reads a byte. One that does not go on with a character breaks it off, and is read again. -/
def step (pending : Option Pending) (b : UInt8) : Reading :=
  match pending with
  | none => first b
  | some p =>
    if p.low ≤ b.toNat ∧ b.toNat ≤ p.high then p.next b
    else (replacement :: (first b).1, (first b).2)

/-- The text that bytes are read as, after the beginning of a character if there is one. -/
def readFrom (pending : Option Pending) : List UInt8 → List Char
  | [] => if pending.isSome then [replacement] else []
  | b :: bs => (step pending b).1 ++ readFrom (step pending b).2 bs

/-- The text that bytes are read as. -/
def read (bs : List UInt8) : List Char := readFrom none bs

end Utf8

end Stencil
