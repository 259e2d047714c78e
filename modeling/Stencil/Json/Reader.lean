import Stencil.Json
import Stencil.Parsed
import Stencil.Span

/-!
# Reading JSON

A reader for JSON texts. It reads from the front of a list of characters and keeps what
follows; every step that reads a value leaves less than there was, which is why it ends.
Values may nest 127 deep.

A failure is a reason and the number of bytes that were left when it was noticed; from
these the line and the column of the message are found, which count bytes and not
characters.
-/

namespace Stencil

namespace Json

/-! ### Failures -/

/-- Why a text is no JSON value. -/
inductive Reason where
  /-- The text ends where a value, or the rest of one, is due. -/
  | eofValue
  /-- The text ends inside an array. -/
  | eofArray
  /-- The text ends inside an object. -/
  | eofObject
  /-- The text ends inside a string. -/
  | eofString
  /-- No value begins here. -/
  | valueExpected
  /-- A word that begins like `null`, `true` or `false` goes on otherwise. -/
  | wordExpected
  /-- A name is not followed by a colon. -/
  | colonExpected
  /-- An item of an array is followed by neither a comma nor the end. -/
  | itemEndExpected
  /-- A field of an object is followed by neither a comma nor the end. -/
  | fieldEndExpected
  /-- A field of an object does not begin with a string. -/
  | nameExpected
  /-- A comma is followed by the end of the array or object. -/
  | trailingComma
  /-- Something follows the value. -/
  | trailingCharacters
  /-- A backslash is followed by no escape. -/
  | invalidEscape
  /-- A number goes on in a way no number does. -/
  | invalidNumber
  /-- A number is too great to be finite. -/
  | numberTooGreat
  /-- A control character stands inside a string. -/
  | controlCharacter
  /-- An escape stands for half of a surrogate pair. -/
  | loneSurrogate
  /-- An escape for the first half of a surrogate pair is followed by no escape. -/
  | surrogateExpected
  /-- Values nest too deep. -/
  | tooDeep
  /-- A well-formed value is not what was asked for. -/
  | unfit (message : String)
  deriving DecidableEq, Repr

/-- The message for a reason. -/
def Reason.message : Reason → String
  | eofValue => "EOF while parsing a value"
  | eofArray => "EOF while parsing a list"
  | eofObject => "EOF while parsing an object"
  | eofString => "EOF while parsing a string"
  | valueExpected => "expected value"
  | wordExpected => "expected ident"
  | colonExpected => "expected `:`"
  | itemEndExpected => "expected `,` or `]`"
  | fieldEndExpected => "expected `,` or `\x7d`"
  | nameExpected => "key must be a string"
  | trailingComma => "trailing comma"
  | trailingCharacters => "trailing characters"
  | invalidEscape => "invalid escape"
  | invalidNumber => "invalid number"
  | numberTooGreat => "number out of range"
  | controlCharacter => "control character (\\u0000-\\u001F) found while parsing a string"
  | loneSurrogate => "lone leading surrogate in hex escape"
  | surrogateExpected => "unexpected end of hex escape"
  | tooDeep => "recursion limit exceeded"
  | unfit message => message

/-- A reason, and how many bytes were left when it was noticed. -/
structure Failure where
  /-- What is wrong. -/
  reason : Reason
  /-- The bytes of the text that had not been looked at. -/
  left : Nat
  deriving DecidableEq, Repr

/-- Noticed in front of the text `cs`. -/
def Failure.before (reason : Reason) (cs : List Char) : Failure := ⟨reason, Text.size cs⟩

/-- Noticed at the first byte of the text `cs`, which counts as looked at. -/
def Failure.at (reason : Reason) (cs : List Char) : Failure := ⟨reason, Text.size cs - 1⟩

/-- The line, and the bytes since its start, after the first `n` bytes of a text; `line` and
`column` are those so far. -/
def lineColumn : (n line column : Nat) → List Char → Nat × Nat
  | _, line, column, [] => (line, column)
  | n, line, column, c :: cs =>
    if n < c.utf8Size then (line, column + n)
    else if c = '\n' then lineColumn (n - c.utf8Size) (line + 1) 0 cs
    else lineColumn (n - c.utf8Size) line (column + c.utf8Size) cs

/-- The message of a failure to read `source`. -/
def Failure.message (source : List Char) (f : Failure) : String :=
  let (line, column) := lineColumn (Text.size source - f.left) 1 0 source
  f.reason.message ++ " at line " ++ toString line ++ " column " ++ toString column

/-! ### Parts of a text -/

/-- The blanks of JSON. -/
def isSpace (c : Char) : Bool := c == ' ' || c == '\n' || c == '\t' || c == '\r'

/-- The text after its blanks. -/
def skipSpace (cs : List Char) : List Char := cs.dropWhile isSpace

theorem length_skipSpace_le (cs : List Char) : (skipSpace cs).length ≤ cs.length :=
  length_dropWhile_le _ _

/-- What stands after the blanks and one more character is shorter than the text. -/
theorem length_lt_of_skipSpace {cs rest : List Char} {c : Char} (h : skipSpace cs = c :: rest) :
    rest.length < cs.length := by
  have := length_skipSpace_le cs
  rw [h, List.length_cons] at this
  omega

/-! ### Words -/

/-- The rest of a word whose first character has been read. -/
def word {α : Type} (value : α) :
    (letters : List Char) → (cs : List Char) → Except Failure (Parsed α (cs.length + 1))
  | [], cs => .ok ⟨value, cs, Nat.lt_succ_self _⟩
  | _ :: _, [] => .error ⟨.eofValue, 0⟩
  | l :: ls, c :: cs =>
    if c = l then (word value ls cs).map (·.widen (length_lt_cons_succ c cs))
    else .error (.at .wordExpected (c :: cs))

/-! ### Numbers -/

/-- The value of a digit. -/
def digitValue (c : Char) : Nat := c.toNat - 48

/-- Takes digits into a number while it stays within `bound`; also the digits that were not
taken. -/
def gather (bound : Nat) : Nat → List Char → Nat × List Char
  | n, [] => (n, [])
  | n, d :: ds =>
    if bound < n * 10 + digitValue d then (n, d :: ds) else gather bound (n * 10 + digitValue d) ds

/-- The digits at the front of a text. -/
def digits (cs : List Char) : List Char := cs.takeWhile Char.isDigit

/-- The text after the digits at its front. -/
def afterDigits (cs : List Char) : List Char := cs.dropWhile Char.isDigit

theorem length_afterDigits_le (cs : List Char) : (afterDigits cs).length ≤ cs.length :=
  length_dropWhile_le _ _

/-- The greatest exponent that is read in full. -/
def maxExponent : Nat := 2147483647

/-- The end of a floating point number: `digits * 10 ^ exponent`, if that is finite. -/
def finish (negative : Bool) (number : Nat) (exponent : Int) (cs : List Char) :
    Except Failure (Parsed Number (cs.length + 1)) :=
  match Number.ofParts negative number exponent with
  | some x => .ok ⟨.float x, cs, Nat.lt_succ_self _⟩
  | none => .error (.before .numberTooGreat cs)

/-- Whether a text begins with a minus or a plus sign, and the text after it. -/
def sign : List Char → Bool × List Char
  | '-' :: cs => (true, cs)
  | '+' :: cs => (false, cs)
  | cs => (false, cs)

theorem length_sign_le (cs : List Char) : (sign cs).2.length ≤ cs.length := by
  unfold sign
  split <;> simp

/-- An exponent, from after its `e`. One that is too great to be read in full makes the
number zero or not finite. -/
def exponent (negative : Bool) (number : Nat) (start : Int) (cs : List Char) :
    Except Failure (Parsed Number (cs.length + 1)) :=
  have hs := length_sign_le cs
  have hd := length_afterDigits_le (sign cs).2
  match (sign cs).2 with
  | [] => .error ⟨.eofValue, 0⟩
  | c :: rest =>
    if !c.isDigit then .error (.at .invalidNumber (c :: rest))
    else
      match gather maxExponent 0 (digits (sign cs).2) with
      | (e, []) =>
        (finish negative number (if (sign cs).1 then start - e else start + e)
          (afterDigits (sign cs).2)).map (·.widen (Nat.succ_le_succ (Nat.le_trans hd hs)))
      | (_, _ :: untaken) =>
        if number ≠ 0 ∧ !(sign cs).1 then
          .error ⟨.numberTooGreat, Text.size untaken + Text.size (afterDigits (sign cs).2)⟩
        else .ok ⟨.float (.zero negative), afterDigits (sign cs).2,
          Nat.lt_succ_of_le (Nat.le_trans hd hs)⟩

/-- What may follow the digits of a floating point number: an exponent. -/
def afterFraction (negative : Bool) (number : Nat) (start : Int) (cs : List Char) :
    Except Failure (Parsed Number (cs.length + 1)) :=
  match cs with
  | 'e' :: rest | 'E' :: rest =>
    (exponent negative number start rest).map (·.widen (by simp))
  | other => finish negative number start other

/-- A fraction, from after its point. Digits that do not fit into the number are dropped. -/
def fraction (negative : Bool) (number : Nat) (start : Int) (cs : List Char) :
    Except Failure (Parsed Number (cs.length + 1)) :=
  have hd := length_afterDigits_le cs
  match digits cs with
  | [] => .error (if cs.isEmpty then ⟨.eofValue, 0⟩ else .at .invalidNumber cs)
  | d :: ds =>
    let (n, untaken) := gather Number.maxWord number (d :: ds)
    let taken := (d :: ds).length - untaken.length
    (afterFraction negative n (start - taken) (afterDigits cs)).map (·.widen (by omega))

/-- What may follow the digits of a number: a fraction or an exponent. `dropped` digits did not
fit into the number. -/
def afterWhole (negative : Bool) (number dropped : Nat) (cs : List Char) :
    Except Failure (Parsed Number (cs.length + 1)) :=
  match cs with
  | '.' :: rest => (fraction negative number dropped rest).map (·.widen (by simp))
  | 'e' :: rest | 'E' :: rest =>
    (exponent negative number dropped rest).map (·.widen (by simp))
  | other =>
    if dropped = 0 then .ok ⟨.ofWhole negative number, other, Nat.lt_succ_self _⟩
    else finish negative number dropped other

/-- A number, from after its sign. It has no zeros in front. -/
def wholeNumber (negative : Bool) (cs : List Char) : Except Failure (Parsed Number cs.length) :=
  match cs with
  | [] => .error ⟨.eofValue, 0⟩
  | c :: rest =>
    if c = '0' then
      if rest.head?.any Char.isDigit then .error (.at .invalidNumber rest)
      else afterWhole negative 0 0 rest
    else if c.isDigit then
      let (n, untaken) := gather Number.maxWord 0 (c :: digits rest)
      (afterWhole negative n untaken.length (afterDigits rest)).map
        (·.widen (Nat.succ_le_succ (length_afterDigits_le rest)))
    else .error (.at .invalidNumber (c :: rest))

/-! ### Strings -/

/-- The value of a hexadecimal digit. -/
def hexValue? (c : Char) : Option Nat :=
  if c.isDigit then some (c.toNat - 48)
  else if 'a' ≤ c ∧ c ≤ 'f' then some (c.toNat - 87)
  else if 'A' ≤ c ∧ c ≤ 'F' then some (c.toNat - 55)
  else none

/-- The number that four hexadecimal digits stand for. -/
def hexUnit? : List Char → Option Nat
  | [a, b, c, d] => do
    let a ← hexValue? a
    let b ← hexValue? b
    let c ← hexValue? c
    let d ← hexValue? d
    return ((a * 16 + b) * 16 + c) * 16 + d
  | _ => none

/-- Four hexadecimal digits. They are looked at as bytes, all four at once. -/
def hexUnit (cs : List Char) : Except Failure (Parsed Nat (cs.length + 1)) :=
  if Text.size (cs.take 4) < 4 then .error ⟨.eofString, 0⟩
  else
    match hexUnit? (cs.take 4) with
    | some n => .ok ⟨n, cs.drop 4, by rw [List.length_drop]; omega⟩
    | none => .error ⟨.invalidEscape, Text.size cs - 4⟩

/-- The second half of a surrogate pair whose first half is `high`. -/
def lowSurrogate (high : Nat) (cs : List Char) : Except Failure (Parsed Char (cs.length + 1)) :=
  match cs with
  | [] => .error ⟨.eofString, 0⟩
  | '\\' :: [] => .error ⟨.eofString, 0⟩
  | '\\' :: 'u' :: rest => do
    let low ← hexUnit rest
    if 0xDC00 ≤ low.value ∧ low.value ≤ 0xDFFF then
      return (low.map fun n => Char.ofNat ((high - 0xD800) * 0x400 + (n - 0xDC00) + 0x10000)).widen
        (by simp)
    else .error (.before .loneSurrogate low.rest)
  | '\\' :: rest => .error (.at .surrogateExpected rest)
  | cs => .error (.at .surrogateExpected cs)

/-- The character that an escape stands for, from after its `\u`. -/
def unicodeEscape (cs : List Char) : Except Failure (Parsed Char (cs.length + 1)) := do
  let unit ← hexUnit cs
  if 0xDC00 ≤ unit.value ∧ unit.value ≤ 0xDFFF then .error (.before .loneSurrogate unit.rest)
  else if 0xD800 ≤ unit.value ∧ unit.value ≤ 0xDBFF then
    let pair ← lowSurrogate unit.value unit.rest
    return pair.widen unit.length_rest_lt
  else return unit.map Char.ofNat

/-- The character that an escape of one letter stands for. -/
def simpleEscape? (c : Char) : Option Char :=
  if c = '\x22' ∨ c = '\\' ∨ c = '/' then some c
  else if c = 'b' then some '\x08'
  else if c = 'f' then some '\x0c'
  else if c = 'n' then some '\n'
  else if c = 'r' then some '\r'
  else if c = 't' then some '\t'
  else none

/-- The character that an escape stands for, from after its backslash. -/
def escaped (cs : List Char) : Except Failure (Parsed Char (cs.length + 1)) :=
  match cs with
  | [] => .error ⟨.eofString, 0⟩
  | c :: rest =>
    match simpleEscape? c with
    | some e => .ok ⟨e, rest, length_lt_cons_succ c rest⟩
    | none =>
      if c = 'u' then (unicodeEscape rest).map (·.widen (length_lt_cons_succ c rest))
      else .error (.at .invalidEscape (c :: rest))

/-- The characters of a string, from after its opening quote. -/
def stringChars (cs : List Char) : Except Failure (Parsed (List Char) (cs.length + 1)) :=
  match cs with
  | [] => .error ⟨.eofString, 0⟩
  | c :: rest =>
    if c = '\x22' then .ok ⟨[], rest, length_lt_cons_succ c rest⟩
    else if c = '\\' then do
      let e ← escaped rest
      have he := e.length_rest_lt
      let more ← stringChars e.rest
      return (more.map (e.value :: ·)).widen (length_succ_le_cons_succ c (Nat.le_of_lt_succ he))
    else if c.toNat < 32 then .error (.before .controlCharacter rest)
    else do
      let more ← stringChars rest
      return (more.map (c :: ·)).widen (length_lt_cons_succ c rest)
termination_by cs.length
decreasing_by all_goals simp <;> omega

/-! ### Arrays and objects -/

/-- What comes next inside an array. -/
inductive NextItem (n : Nat) where
  /-- The end, and what follows it. -/
  | finished (rest : List Char) (h : rest.length < n)
  /-- Another item, which begins here. -/
  | item (text : List Char) (h : text.length ≤ n)

/-- What comes next inside an array; `first` says that nothing has come yet. -/
def nextItem (first : Bool) (cs : List Char) : Except Failure (NextItem cs.length) :=
  match h : skipSpace cs with
  | [] => .error ⟨.eofArray, 0⟩
  | c :: rest =>
    have hr := length_lt_of_skipSpace h
    if c = ']' then .ok (.finished rest hr)
    else if first then .ok (.item (c :: rest) (by rw [← h]; exact length_skipSpace_le cs))
    else if c = ',' then
      match h' : skipSpace rest with
      | [] => .error ⟨.eofValue, 0⟩
      | d :: rest' =>
        if d = ']' then .error (.at .trailingComma (d :: rest'))
        else .ok (.item (d :: rest')
          (by rw [← h']; exact Nat.le_trans (length_skipSpace_le rest) (Nat.le_of_lt hr)))
    else .error (.at .itemEndExpected (c :: rest))

/-- What comes next inside an object. -/
inductive NextField (n : Nat) where
  /-- The end, and what follows it. -/
  | finished (rest : List Char) (h : rest.length < n)
  /-- Another field: its name, and the text after the colon. -/
  | field (name : String) (rest : List Char) (h : rest.length < n)

/-- A name, from after its opening quote, and the colon. -/
def fieldName (cs : List Char) : Except Failure (Parsed String (cs.length + 1)) := do
  let name ← stringChars cs
  match h : skipSpace name.rest with
  | [] => .error ⟨.eofObject, 0⟩
  | c :: rest =>
    if c = ':' then
      return ⟨String.ofList name.value, rest,
        Nat.lt_trans (length_lt_of_skipSpace h) name.length_rest_lt⟩
    else .error (.at .colonExpected (c :: rest))

/-- What comes next inside an object; `first` says that nothing has come yet. -/
def nextField (first : Bool) (cs : List Char) : Except Failure (NextField cs.length) :=
  match h : skipSpace cs with
  | [] => .error ⟨.eofObject, 0⟩
  | c :: rest =>
    have hr := length_lt_of_skipSpace h
    if c = '\x7d' then .ok (.finished rest hr)
    else if first then
      if c = '\x22' then do
        let name ← fieldName rest
        return .field name.value name.rest (by have := name.length_rest_lt; omega)
      else .error (.at .nameExpected (c :: rest))
    else if c = ',' then
      match h' : skipSpace rest with
      | [] => .error ⟨.eofValue, 0⟩
      | d :: rest' =>
        if d = '\x22' then do
          let name ← fieldName rest'
          return .field name.value name.rest
            (by have := name.length_rest_lt; have := length_lt_of_skipSpace h'; omega)
        else if d = '\x7d' then .error (.at .trailingComma (d :: rest'))
        else .error (.at .nameExpected (d :: rest'))
    else .error (.at .fieldEndExpected (c :: rest))

/-! ### Values -/

mutual

/-- A value, inside so many others that only `depth` may still be opened. -/
def value (depth : Nat) (cs : List Char) : Except Failure (Parsed Json cs.length) :=
  match h : skipSpace cs with
  | [] => .error ⟨.eofValue, 0⟩
  | c :: rest =>
    have hr := length_lt_of_skipSpace h
    if c = 'n' then (word .null "ull".toList rest).map (·.widen hr)
    else if c = 't' then (word (.bool true) "rue".toList rest).map (·.widen hr)
    else if c = 'f' then (word (.bool false) "alse".toList rest).map (·.widen hr)
    else if c = '-' then
      (wholeNumber true rest).map (fun p => (p.map .number).widen (Nat.le_of_lt hr))
    else if c.isDigit then
      (wholeNumber false (c :: rest)).map (fun p => (p.map .number).widen hr)
    else if c = '\x22' then
      (stringChars rest).map (fun p => (p.map (.string <| String.ofList ·)).widen hr)
    else if c = '[' then
      if depth ≤ 1 then .error (.at .tooDeep (c :: rest))
      else (items (depth - 1) true rest).map (fun p => (p.map .array).widen (Nat.le_of_lt hr))
    else if c = '\x7b' then
      if depth ≤ 1 then .error (.at .tooDeep (c :: rest))
      else (fields (depth - 1) true rest).map
        (fun p => (p.map (.object <| Fields.ofList ·)).widen (Nat.le_of_lt hr))
    else .error (.at .valueExpected (c :: rest))
termination_by 2 * cs.length

/-- The items of an array up to its end. -/
def items (depth : Nat) (first : Bool) (cs : List Char) :
    Except Failure (Parsed (List Json) cs.length) := do
  match ← nextItem first cs with
  | .finished rest h => return ⟨[], rest, h⟩
  | .item text h =>
    let v ← value depth text
    have hv := v.length_rest_lt
    let vs ← items depth false v.rest
    return (vs.map (v.value :: ·)).widen (by omega)
termination_by 2 * cs.length + 1

/-- The fields of an object up to its end. -/
def fields (depth : Nat) (first : Bool) (cs : List Char) :
    Except Failure (Parsed (List (String × Json)) cs.length) := do
  match ← nextField first cs with
  | .finished rest h => return ⟨[], rest, h⟩
  | .field name rest h =>
    let v ← value depth rest
    have hv := v.length_rest_lt
    let vs ← fields depth false v.rest
    return (vs.map ((name, v.value) :: ·)).widen (by omega)
termination_by 2 * cs.length + 1

end

/-- How many values may be open at once, and one more. -/
def depthLimit : Nat := 128

/-- Nothing but blanks may follow a value. -/
def ended (cs : List Char) : Except Failure Unit :=
  match skipSpace cs with
  | [] => .ok ()
  | c :: rest => .error (.at .trailingCharacters (c :: rest))

/-- The value that a text stands for. -/
def readChars (cs : List Char) : Except Failure Json := do
  let v ← value depthLimit cs
  ended v.rest
  return v.value

/-- The value that a text stands for, or a message that says where it goes wrong. -/
def read (source : String) : Except String Json :=
  (readChars source.toList).mapError (Failure.message source.toList)

end Json

end Stencil
