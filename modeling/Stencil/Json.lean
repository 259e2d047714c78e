import Stencil.Number

/-!
# JSON values

A JSON value, and lists of named fields. Reading puts the fields of an object in the order
of their names, a later field taking the place of an earlier one of the same name; names
are ordered by their characters. A value prints with no blanks.
-/

namespace Stencil

/-- A JSON value. -/
inductive Json where
  /-- `null`. -/
  | null
  /-- `true` or `false`. -/
  | bool (b : Bool)
  /-- A number. -/
  | number (n : Number)
  /-- A string. -/
  | string (s : String)
  /-- An array. -/
  | array (items : List Json)
  /-- An object. -/
  | object (fields : List (String × Json))
  deriving Inhabited, Repr

/-! ### Named fields -/

namespace Fields

variable {α β : Type}

/-- Puts a field in its place among fields in the order of their names; it replaces a field
of the same name. -/
def insert (name : String) (value : α) : List (String × α) → List (String × α)
  | [] => [(name, value)]
  | (k, v) :: rest =>
    if name = k then (name, value) :: rest
    else if name < k then (name, value) :: (k, v) :: rest
    else (k, v) :: insert name value rest

/-- The fields of a list in the order of their names; the last one of a name stays. -/
def ofList (fields : List (String × α)) : List (String × α) :=
  fields.foldl (fun acc (k, v) => insert k v acc) []

/-- The value of the first field of a name. -/
def get? (name : String) : List (String × α) → Option α
  | [] => none
  | (k, v) :: rest => if k = name then some v else get? name rest

/-- A field that was just put in is the one that is found. -/
theorem get?_insert_self (name : String) (value : α) (fields : List (String × α)) :
    get? name (insert name value fields) = some value := by
  induction fields with
  | nil => simp [insert, get?]
  | cons f fields ih =>
    obtain ⟨k, v⟩ := f
    simp only [insert]
    split
    · simp [get?]
    split
    · simp [get?]
    · next hne _ => simp [get?, Ne.symm hne, ih]

/-- A field put in changes no field of another name. -/
theorem get?_insert_of_ne {name other : String} (h : other ≠ name) (value : α)
    (fields : List (String × α)) : get? other (insert name value fields) = get? other fields := by
  induction fields with
  | nil => simp [insert, get?, Ne.symm h]
  | cons f fields ih =>
    obtain ⟨k, v⟩ := f
    simp only [insert]
    split
    · next hk => subst hk; simp [get?, Ne.symm h]
    split
    · simp [get?, Ne.symm h]
    · simp [get?, ih]

end Fields

/-! ### Printing -/

namespace Json

/-- A hexadecimal digit. -/
def hexDigit (n : Nat) : Char := if n < 10 then Char.ofNat (48 + n) else Char.ofNat (87 + n)

/-- A character inside quotes: quotes, backslashes and control characters are escaped. -/
def escape (c : Char) : List Char :=
  if c = '\x22' then ['\\', '\x22']
  else if c = '\\' then ['\\', '\\']
  else if c.toNat = 8 then ['\\', 'b']
  else if c.toNat = 9 then ['\\', 't']
  else if c.toNat = 10 then ['\\', 'n']
  else if c.toNat = 12 then ['\\', 'f']
  else if c.toNat = 13 then ['\\', 'r']
  else if c.toNat < 32 then ['\\', 'u', '0', '0', hexDigit (c.toNat / 16), hexDigit (c.toNat % 16)]
  else [c]

/-- A string in quotes. -/
def quote (s : List Char) : List Char := '\x22' :: s.flatMap escape ++ ['\x22']

mutual

/-- The characters of a value. -/
def chars : Json → List Char
  | null => "null".toList
  | bool true => "true".toList
  | bool false => "false".toList
  | number n => n.text.toList
  | string s => quote s.toList
  | array items => '[' :: charsOfItems items ++ [']']
  | object fields => '\x7b' :: charsOfFields fields ++ ['\x7d']

/-- The characters of the items of an array, with commas between them. -/
def charsOfItems : List Json → List Char
  | [] => []
  | [v] => chars v
  | v :: vs => chars v ++ ',' :: charsOfItems vs

/-- The characters of the fields of an object, with commas between them. -/
def charsOfFields : List (String × Json) → List Char
  | [] => []
  | [(k, v)] => quote k.toList ++ ':' :: chars v
  | (k, v) :: rest => quote k.toList ++ ':' :: chars v ++ ',' :: charsOfFields rest

end

/-- The text of a value. -/
def text (v : Json) : String := String.ofList (chars v)

end Json

end Stencil
