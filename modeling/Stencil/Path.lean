/-!
# Paths

In a path names stand between slashes. `Path.pieces` takes it apart and `Path.join` puts names
together again. A path can be written in characters or, as in a file tree, in bytes.
-/

namespace Stencil

namespace Path

/-- What paths are written in. -/
class Letter (α : Type) where
  /-- What stands between names. -/
  slash : α
  /-- What `.` and `..` are made of. -/
  dot : α

instance : Letter Char := ⟨'/', '.'⟩

instance : Letter UInt8 := ⟨0x2F, 0x2E⟩

@[simp] theorem Letter.slash_char : (Letter.slash : Char) = '/' := rfl

@[simp] theorem Letter.dot_char : (Letter.dot : Char) = '.' := rfl

section

variable {α : Type} [DecidableEq α] [Letter α]

/-- The stretches between slashes. There is always one, and it may be empty. -/
def pieces : List α → List (List α)
  | [] => [[]]
  | c :: cs =>
    if c = Letter.slash then [] :: pieces cs
    else
      match pieces cs with
      | p :: ps => (c :: p) :: ps
      | [] => [[c]]

/-- Names with slashes between them. -/
def join : List (List α) → List α
  | [] => []
  | [p] => p
  | p :: ps => p ++ Letter.slash :: join ps

/-- Whether a piece names nothing of its own: an empty one, or `.`. -/
def isIdle (p : List α) : Bool := p == [] || p == [Letter.dot]

/-- The name that takes back the one before it. -/
def up : List α := [Letter.dot, Letter.dot]

/-- Whether a path starts from the root. -/
def isAbsolute (cs : List α) : Bool := cs.head? == some Letter.slash

theorem pieces_ne_nil (cs : List α) : pieces cs ≠ [] := by
  cases cs with
  | nil => simp [pieces]
  | cons c cs =>
    simp only [pieces]
    split
    · simp
    · split <;> simp

/-- Joining the pieces gives the path back. -/
theorem join_pieces (cs : List α) : join (pieces cs) = cs := by
  induction cs with
  | nil => rfl
  | cons c cs ih =>
    have hne := pieces_ne_nil cs
    simp only [pieces]
    split
    · next hc =>
      cases hp : pieces cs with
      | nil => exact absurd hp hne
      | cons p ps => rw [hp] at ih; simp [join, ih, hc]
    · cases hp : pieces cs with
      | nil => exact absurd hp hne
      | cons p ps =>
        rw [hp] at ih
        cases ps with
        | nil => simpa [join] using ih
        | cons q qs => simpa [join] using ih

end

/-- The path of the directory that holds the last name of a path, as text: what comes before
that name, less the slashes and `.` right before it. -/
def parent (cs : List Char) : List Char :=
  let above := (((pieces cs).reverse.dropWhile isIdle).drop 1 |>.dropWhile isIdle).reverse
  if above.isEmpty then
    if isAbsolute cs then ['/']
    else if (pieces cs).head? = some ['.'] then ['.']
    else []
  else join above

/-- A relative path seen from a directory. -/
def append (directory path : List Char) : List Char :=
  match directory.getLast? with
  | none => path
  | some '/' => directory ++ path
  | some _ => directory ++ '/' :: path

end Path

end Stencil
