import Stencil.Toml.Table
import Stencil.Toml.Text

/-!
# Reading TOML

A document is a list of lines, each with a key and a value, a header, or nothing; a comment
may end any of them, and an array may run over several. Values may nest 79 deep and a key may
have 79 names. A text that is no document is refused without a reason.
-/

namespace Stencil

namespace Toml

/-- How deep values may nest, and how many names a key may have. -/
def maxDepth : Nat := 79

/-! ### Ends of lines -/

/-- The text after a comment at its front; the line break stays. -/
def skipComment : List Char → List Char
  | '#' :: cs => cs.dropWhile isPlain
  | cs => cs

theorem length_skipComment_le (cs : List Char) : (skipComment cs).length ≤ cs.length := by
  unfold skipComment
  split
  · next cs =>
    have := length_dropWhile_le isPlain cs
    simp only [List.length_cons]
    omega
  · simp

/-- The text after the end of a line, before which there are only blanks and perhaps a
comment. -/
def lineEnd? (cs : List Char) : Option (List Char) :=
  match skipComment (skipSpace cs) with
  | [] => some []
  | rest => lineBreak? rest

theorem length_skipSpace_le (cs : List Char) : (skipSpace cs).length ≤ cs.length :=
  length_dropWhile_le _ _

theorem length_lineEnd?_le {cs rest : List Char} (h : lineEnd? cs = some rest) :
    rest.length ≤ cs.length := by
  have h1 := length_skipComment_le (skipSpace cs)
  have h2 := length_skipSpace_le cs
  unfold lineEnd? at h
  split at h
  · simp only [Option.some.injEq] at h
    simp [← h]
  · have h3 := length_lineBreak?_lt h
    omega

/-- The end of a line takes something, unless it is also the end of the text. -/
theorem length_lineEnd?_lt {cs rest : List Char} (h : lineEnd? cs = some rest) (hcs : cs ≠ []) :
    rest.length < cs.length := by
  have h1 := length_skipComment_le (skipSpace cs)
  have h2 := length_skipSpace_le cs
  unfold lineEnd? at h
  split at h
  · simp only [Option.some.injEq] at h
    simpa [← h] using List.length_pos_iff.2 hcs
  · have h3 := length_lineBreak?_lt h
    omega

/-- The text after blanks, comments and line breaks. -/
def skipFiller (cs : List Char) : List Char :=
  match _h : lineBreak? (skipComment (skipSpace cs)) with
  | some rest => skipFiller rest
  | none => skipComment (skipSpace cs)
termination_by cs.length
decreasing_by
  have h1 := length_skipComment_le (skipSpace cs)
  have h2 := length_skipSpace_le cs
  have h3 := length_lineBreak?_lt _h
  omega

theorem length_skipFiller_le (cs : List Char) : (skipFiller cs).length ≤ cs.length := by
  fun_induction skipFiller cs with
  | case1 cs rest h ih =>
    have h1 := length_skipComment_le (skipSpace cs)
    have h2 := length_skipSpace_le cs
    have h3 := length_lineBreak?_lt h
    omega
  | case2 cs h =>
    have h1 := length_skipComment_le (skipSpace cs)
    have h2 := length_skipSpace_le cs
    omega

/-! ### Keys -/

/-- The characters of bare names. -/
def isBareChar (c : Char) : Bool := c.isAlphanum || c == '_' || c == '-'

/-- A name: a quoted string on one line, or a bare name. -/
def name? (cs : List Char) : Option (Parsed String cs.length) :=
  match cs with
  | [] => none
  | c :: rest =>
    if c = '\x22' ∨ c = '\x27' then
      (lineString c (c == '\x22') rest).map fun p =>
        (p.map String.ofList).widen (length_lt_cons c rest)
    else if isBareChar c then
      some ⟨String.ofList (c :: rest.takeWhile isBareChar), rest.dropWhile isBareChar,
        Nat.lt_succ_of_le (length_dropWhile_le _ _)⟩
    else none

/-- The names of a dotted key, all but the last one and the last. -/
def key? (cs : List Char) : Option (Parsed (List String × String) cs.length) := do
  let p ← name? (skipSpace cs)
  have hp := p.length_rest_lt
  have hs := length_skipSpace_le cs
  match _h : skipSpace p.rest with
  | '.' :: rest =>
    have hr := length_lt_of_eq_cons _h (length_skipSpace_le p.rest)
    let more ← key? rest
    have hm := more.length_rest_lt
    return (more.map fun (path, last) => (p.value :: path, last)).widen (by omega)
  | rest =>
    return ⟨([], p.value), rest, by
      have := length_skipSpace_le p.rest
      rw [_h] at this
      omega⟩
termination_by cs.length
decreasing_by
  have := length_lt_of_eq_cons _h (length_skipSpace_le p.rest)
  omega

/-- A key with as many names as it may have. -/
def boundedKey? (cs : List Char) : Option (Parsed (List String × String) cs.length) := do
  let p ← key? cs
  if p.value.1.length < maxDepth then some p else none

/-- A key and its equals sign. -/
def keyEquals? (cs : List Char) : Option (Parsed (List String × String) cs.length) := do
  let p ← boundedKey? cs
  match _h : p.rest with
  | '=' :: rest =>
    return ⟨p.value, rest, length_lt_of_eq_cons _h (Nat.le_of_lt p.length_rest_lt)⟩
  | _ => none

/-! ### Values -/

/-- The word at the front of a text. A date may go on with a time after a blank. -/
def word (cs : List Char) : List Char × List Char :=
  let first := cs.takeWhile isWordChar
  let rest := cs.dropWhile isWordChar
  match rest with
  | ' ' :: c :: more =>
    if isDate first && c.isDigit then
      (first ++ 'T' :: (c :: more).takeWhile isWordChar, (c :: more).dropWhile isWordChar)
    else (first, rest)
  | _ => (first, rest)

/-- A word that is not empty leaves less than there was. -/
theorem length_word_lt {cs : List Char} :
    (word cs).1 ≠ [] → (word cs).2.length < cs.length := by
  have hl : (cs.takeWhile isWordChar).length + (cs.dropWhile isWordChar).length = cs.length := by
    rw [← List.length_append, List.takeWhile_append_dropWhile]
  unfold word
  dsimp only
  split
  · next c more hm =>
    have hd := length_dropWhile_le isWordChar (c :: more)
    rw [hm, List.length_cons] at hl
    split
    · intro _
      dsimp only
      omega
    · intro h
      have := List.length_pos_iff.2 h
      dsimp only at this ⊢
      rw [hm, List.length_cons]
      omega
  · intro h
    have := List.length_pos_iff.2 h
    dsimp only at this ⊢
    omega

/-- The value that the word at the front of a text stands for. -/
def wordValue? (cs : List Char) : Option (Parsed Toml cs.length) :=
  if h : (word cs).1 = [] then none
  else (ofWord? (word cs).1).map fun v => ⟨v, (word cs).2, length_word_lt h⟩

mutual

/-- A value, inside so many others that only `depth` may still be opened. -/
def value? (depth : Nat) (cs : List Char) : Option (Parsed Toml cs.length) :=
  match cs with
  | [] => none
  | c :: rest =>
    if c = '\x22' ∨ c = '\x27' then
      (string? (c :: rest)).map (·.map fun s => .string (String.ofList s))
    else if c = '[' then
      match depth with
      | 0 => none
      | depth + 1 => (items? depth rest).map fun p =>
        (p.map .array).widen (Nat.le_of_lt (length_lt_cons c rest))
    else if c = '\x7b' then
      match depth with
      | 0 => none
      | depth + 1 => do
        match _h : skipSpace rest with
        | '\x7d' :: after =>
          have ha := length_lt_of_eq_cons _h (length_skipSpace_le rest)
          return ⟨.table [], after, Nat.lt_trans ha (length_lt_cons c rest)⟩
        | _ =>
          let p ← fields? depth [] rest
          return (p.map fun es => .table (finishedEntries es)).widen
            (Nat.le_of_lt (length_lt_cons c rest))
    else wordValue? (c :: rest)
termination_by 3 * cs.length
decreasing_by all_goals simp only [List.length_cons]; omega

/-- The items of an array up to its end. -/
def items? (depth : Nat) (cs : List Char) : Option (Parsed (List Toml) cs.length) := do
  have hf := length_skipFiller_le cs
  match _h : skipFiller cs with
  | [] => none
  | c :: rest =>
    have hc := length_lt_of_eq_cons _h hf
    if c = ']' then return ⟨[], rest, hc⟩
    else
      let v ← value? depth (c :: rest)
      have hv := v.length_rest_lt
      have hv' := length_skipFiller_le v.rest
      match _h' : skipFiller v.rest with
      | ',' :: after =>
        have ha := length_lt_of_eq_cons _h' hv'
        let vs ← items? depth after
        return (vs.map (v.value :: ·)).widen
          (Nat.le_trans (Nat.le_of_lt (Nat.lt_trans ha hv)) hc)
      | ']' :: after =>
        have ha := length_lt_of_eq_cons _h' hv'
        return ⟨[v.value], after, Nat.lt_of_lt_of_le (Nat.lt_trans ha hv) hc⟩
      | _ => none
termination_by 3 * cs.length + 1
decreasing_by
  · rw [_h] at hf; omega
  · simp only [List.length_cons] at hv; omega

/-- The entries of a table between braces up to its end, after those already there. -/
def fields? (depth : Nat) (es : Entries) (cs : List Char) :
    Option (Parsed Entries cs.length) := do
  let k ← keyEquals? cs
  have hk := k.length_rest_lt
  have hs := length_skipSpace_le k.rest
  let v ← value? depth (skipSpace k.rest)
  have hv := v.length_rest_lt
  have hv' := length_skipSpace_le v.rest
  let es ← es.define k.value.1 k.value.2 v.value
  match _h : skipSpace v.rest with
  | ',' :: after =>
    have ha := length_lt_of_eq_cons _h hv'
    let more ← fields? depth es after
    have hm := more.length_rest_lt
    return more.widen (by omega)
  | '\x7d' :: after =>
    have ha := length_lt_of_eq_cons _h hv'
    return ⟨es, after, by omega⟩
  | _ => none
termination_by 3 * cs.length + 2
decreasing_by all_goals omega

end

/-! ### Lines -/

/-- A header with `close` after its key, and the end of its line. -/
def header? (close : List Char) (cs : List Char) :
    Option (Parsed (List String × String) cs.length) := do
  let k ← boundedKey? cs
  have hk := k.length_rest_lt
  if k.rest.take close.length = close then
    match h : lineEnd? (k.rest.drop close.length) with
    | some rest =>
      return ⟨k.value, rest, by
        have := length_lineEnd?_le h
        rw [List.length_drop] at this
        omega⟩
    | none => none
  else none

/-- The entry of a line, and the end of the line. -/
def definition? (cs : List Char) :
    Option (Parsed ((List String × String) × Toml) cs.length) := do
  let k ← keyEquals? cs
  have hk := k.length_rest_lt
  have hs := length_skipSpace_le k.rest
  let v ← value? maxDepth (skipSpace k.rest)
  have hv := v.length_rest_lt
  match h : lineEnd? v.rest with
  | some rest =>
    return ⟨(k.value, v.value), rest, by
      have := length_lineEnd?_le h
      omega⟩
  | none => none

/-- The document that lines make, after what has been read already. -/
def lines? (d : Draft) (cs : List Char) : Option Draft := do
  have _hs := length_skipSpace_le cs
  match _h : skipSpace cs with
  | [] => some d
  | '[' :: '[' :: rest =>
    let k ← header? [']', ']'] rest
    have _hk := k.length_rest_lt
    let d ← d.startElement k.value.1 k.value.2
    lines? d k.rest
  | '[' :: rest =>
    let k ← header? [']'] rest
    have _hk := k.length_rest_lt
    let d ← d.startTable k.value.1 k.value.2
    lines? d k.rest
  | c :: rest =>
    match _h' : lineEnd? (c :: rest) with
    | some after =>
      have _ha := length_lineEnd?_lt _h' (by simp)
      lines? d after
    | none =>
      let e ← definition? (c :: rest)
      have _he := e.length_rest_lt
      let d ← d.define e.value.1.1 e.value.1.2 e.value.2
      lines? d e.rest
termination_by cs.length
decreasing_by
  all_goals
    rw [_h] at _hs
    simp only [List.length_cons] at *
    omega

/-- The byte order mark that a document may begin with. -/
def byteOrderMark : Char := '\uFEFF'

/-- The entries of the document that a text is. -/
def read? (source : String) : Option (List (String × Toml)) := do
  let cs := match source.toList with
    | c :: cs => if c = byteOrderMark then cs else c :: cs
    | [] => []
  let d ← lines? .empty cs
  return finishedEntries (← d.finish?)

end Toml

end Stencil
