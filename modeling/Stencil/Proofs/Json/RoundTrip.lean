import Stencil.Proofs.Json
import Stencil.Proofs.Json.Scalars

/-!
# Values are read back

The text of a value is read back as that value (`Json.read_text`). The value must nest no deeper than
a text may, its numbers must be integers of 64 bits, and the fields of its objects must stand in the
order of their names, each name once, as those of every value that was read. Fields in another order
are put in order (`Json.read_text_object`).

A printed value is read up to where it ends, with anything behind it that does not go on with a
number. So the items of an array and the fields of an object are read one after the other.
-/

namespace Stencil

namespace Fields

variable {α : Type}

theorem insert_of_lt {name : String} {value : α} {fields : List (String × α)}
    (h : ∀ f ∈ fields, f.1 < name) : insert name value fields = fields ++ [(name, value)] := by
  induction fields with
  | nil => rfl
  | cons f fields ih =>
    obtain ⟨k, v⟩ := f
    obtain ⟨hk, hfields⟩ := List.forall_mem_cons.1 h
    rw [insert, if_neg hk.ne', if_neg hk.asymm, ih hfields, List.cons_append]

/-- Fields that stand in order stay as they are. -/
theorem Sorted.ofList_eq {fields : List (String × α)} (h : Sorted fields) :
    ofList fields = fields := by
  induction fields using List.reverseRecOn with
  | nil => rfl
  | append_singleton fields f ih =>
    obtain ⟨hfields, -, hlast⟩ := List.pairwise_append.1 h
    obtain ⟨k, v⟩ := f
    rw [ofList_concat, ih hfields]
    exact insert_of_lt fun g hg => hlast g hg _ List.mem_cons_self

end Fields

namespace Json

variable {depth : Nat} {rest : List Char}

/-! ### The first character of a value -/

theorem skipSpace_cons {c : Char} (hc : isSpace c = false) (cs : List Char) :
    skipSpace (c :: cs) = c :: cs := by
  rw [skipSpace, List.dropWhile_cons_of_neg (by simp [hc])]

/-- The first character of a value tells of what kind it is. -/
theorem value_cons {c : Char} (hc : isSpace c = false) (depth : Nat) (cs : List Char) :
    value depth (c :: cs) =
      if c = 'n' then (word .null "ull".toList cs).map (·.widen (length_lt_cons c cs))
      else if c = 't' then (word (.bool true) "rue".toList cs).map (·.widen (length_lt_cons c cs))
      else if c = 'f' then (word (.bool false) "alse".toList cs).map (·.widen (length_lt_cons c cs))
      else if c = '-' then
        (wholeNumber true cs).map
          fun p => (p.map .number).widen (Nat.le_of_lt (length_lt_cons c cs))
      else if c.isDigit then
        (wholeNumber false (c :: cs)).map fun p => (p.map .number).widen (Nat.le_refl _)
      else if c = '\x22' then
        (stringChars cs).map
          fun p => (p.map fun s => .string (String.ofList s)).widen (length_lt_cons c cs)
      else if c = '[' then
        if depth ≤ 1 then .error (.at .tooDeep (c :: cs))
        else (items (depth - 1) true cs).map
          fun p => (p.map .array).widen (Nat.le_of_lt (length_lt_cons c cs))
      else if c = '\x7b' then
        if depth ≤ 1 then .error (.at .tooDeep (c :: cs))
        else (fields (depth - 1) true cs).map fun p =>
          (p.map fun fs => .object (Fields.ofList fs)).widen (Nat.le_of_lt (length_lt_cons c cs))
      else .error (.at .valueExpected (c :: cs)) := by
  rw [value]
  split
  · next h =>
    rw [skipSpace_cons hc] at h
    cases h
  · next c' cs' h =>
    rw [skipSpace_cons hc] at h
    cases h
    rfl

theorem word_append {α : Type} (a : α) (letters rest : List Char) :
    Gives (word a letters (letters ++ rest)) a rest := by
  induction letters with
  | nil =>
    rw [List.nil_append]
    exact ⟨Nat.lt_succ_self _, by rw [word]⟩
  | cons l letters ih =>
    rw [List.cons_append, word, if_pos rfl]
    exact ih.widen _

/-- The text of a value is read as the value, up to where it ends, and begins like no end of an
array. -/
structure ReadBack (depth : Nat) (v : Json) : Prop where
  /-- It begins with something. -/
  begins : ∃ c cs, chars v = c :: cs ∧ isSpace c = false ∧ c ≠ ']'
  /-- It is read back. -/
  gives : ∀ rest, EndsNumber rest → Gives (value depth (chars v ++ rest)) v rest

theorem chars_null : chars .null = 'n' :: "ull".toList := by decide

theorem chars_true : chars (.bool true) = 't' :: "rue".toList := by decide

theorem chars_false : chars (.bool false) = 'f' :: "alse".toList := by decide

theorem readBack_null (depth : Nat) : ReadBack depth .null where
  begins := ⟨_, _, chars_null, by decide, by decide⟩
  gives := by
    intro rest _
    rw [chars_null, List.cons_append, value_cons (by decide), if_pos rfl]
    exact (word_append ..).widen _

theorem readBack_bool (depth : Nat) (b : Bool) : ReadBack depth (.bool b) := by
  cases b with
  | true =>
    refine ⟨⟨_, _, chars_true, by decide, by decide⟩, fun rest _ => ?_⟩
    rw [chars_true, List.cons_append, value_cons (by decide), if_neg (by decide), if_pos rfl]
    exact (word_append ..).widen _
  | false =>
    refine ⟨⟨_, _, chars_false, by decide, by decide⟩, fun rest _ => ?_⟩
    rw [chars_false, List.cons_append, value_cons (by decide), if_neg (by decide),
      if_neg (by decide), if_pos rfl]
    exact (word_append ..).widen _

theorem readBack_string (depth : Nat) (s : String) : ReadBack depth (.string s) where
  begins := ⟨'\x22', _, rfl, by decide, by decide⟩
  gives := by
    intro rest _
    have htext : chars (.string s) ++ rest =
        '\x22' :: (s.toList.flatMap escape ++ '\x22' :: rest) := by
      simp [chars, quote]
    have hgives := (stringChars_escape s.toList rest).map_widen
      (fun s => Json.string (String.ofList s)) (length_lt_cons '\x22' _)
    rw [htext, value_cons (by decide)]
    rw [String.ofList_toList] at hgives
    simpa using hgives

theorem chars_ofNat (n : Nat) : chars (.number (.int n)) = Nat.toDigits 10 n :=
  Nat.toList_repr

theorem chars_negSucc (n : Nat) :
    chars (.number (.int (.negSucc n))) = '-' :: Nat.toDigits 10 (n + 1) := by
  have htext : (toString (Int.negSucc n)).toList = ("-" ++ (n + 1).repr).toList := rfl
  rw [chars, Number.text, htext, String.toList_append, Nat.toList_repr]
  rfl

theorem ne_of_isDigit {c d : Char} (hc : c.isDigit) (hd : ¬ d.isDigit) : c ≠ d := by
  rintro rfl
  exact hd hc

theorem ofWhole_negSucc {n : Nat} (h : n + 1 ≤ Number.minSigned) :
    Number.ofWhole true (n + 1) = .int (.negSucc n) := by
  rw [Number.ofWhole, if_neg (by decide), if_neg (by omega)]
  rfl

theorem readBack_int (depth : Nat) {n : Int} (hmin : -(Number.minSigned : Int) ≤ n)
    (hmax : n ≤ Number.maxWord) : ReadBack depth (.number (.int n)) := by
  cases n with
  | ofNat n =>
    have hle : n ≤ Number.maxWord := Int.ofNat_le.1 hmax
    obtain ⟨d, ds, hds⟩ := List.exists_cons_of_ne_nil (Nat.toDigits_ne_nil (n := n) (b := 10))
    have hd : d.isDigit := Nat.isDigit_of_mem_toDigits (by decide) (by decide)
      (hds ▸ List.mem_cons_self)
    have hne {c : Char} (hc : ¬ c.isDigit) : d ≠ c := ne_of_isDigit hd hc
    have hspace : isSpace d = false := by
      simp [isSpace, hne]
    refine ⟨⟨d, ds, (chars_ofNat n).trans hds, hspace, hne (by decide)⟩, fun rest hrest => ?_⟩
    have hgives := (wholeNumber_toDigits hrest false hle).map_widen Json.number (Nat.le_refl _)
    have htext : chars (.number (.int (.ofNat n))) = d :: ds := (chars_ofNat n).trans hds
    rw [htext, List.cons_append, value_cons hspace, if_neg (hne (by decide)),
      if_neg (hne (by decide)), if_neg (hne (by decide)), if_neg (hne (by decide)), if_pos hd]
    rw [hds] at hgives
    exact hgives
  | negSucc n =>
    have hle : n + 1 ≤ Number.minSigned := by
      rw [Int.negSucc_eq] at hmin
      omega
    have hword : Number.minSigned ≤ Number.maxWord := by decide
    refine ⟨⟨_, _, chars_negSucc n, by decide, by decide⟩, fun rest hrest => ?_⟩
    have hgives := (wholeNumber_toDigits hrest true (Nat.le_trans hle hword)).map_widen Json.number
      (Nat.le_of_lt (length_lt_cons '-' _))
    rw [ofWhole_negSucc hle] at hgives
    rw [chars_negSucc, List.cons_append, value_cons (by decide), if_neg (by decide),
      if_neg (by decide), if_neg (by decide), if_pos rfl]
    exact hgives

/-! ### Arrays -/

/-- The characters of the items that follow the first. -/
def charsOfMoreItems : List Json → List Char
  | [] => []
  | v :: vs => ',' :: charsOfItems (v :: vs)

theorem charsOfItems_cons (v : Json) (vs : List Json) :
    charsOfItems (v :: vs) = chars v ++ charsOfMoreItems vs := by
  cases vs <;> simp [charsOfItems, charsOfMoreItems]

theorem nextItem_finished (first : Bool) (rest : List Char) :
    nextItem first (']' :: rest) = .ok (.finished rest (length_lt_cons ']' rest)) := by
  rw [nextItem]
  split
  · next h => cases h
  · next h =>
    cases h
    rw [if_pos rfl]

/-- The first item is what follows. -/
theorem ReadBack.nextItem_first {v : Json} (h : ReadBack depth v) (more : List Char) :
    ∃ hle, nextItem true (chars v ++ more) = .ok (.item (chars v ++ more) hle) := by
  obtain ⟨c, cs, hchars, hspace, hend⟩ := h.begins
  refine ⟨Nat.le_refl _, ?_⟩
  rw [hchars, List.cons_append, nextItem]
  split
  · next h =>
    rw [skipSpace_cons hspace] at h
    cases h
  · next h =>
    rw [skipSpace_cons hspace] at h
    cases h
    rw [if_neg hend, if_pos rfl]

/-- Another item follows its comma. -/
theorem ReadBack.nextItem_more {v : Json} (h : ReadBack depth v) (more : List Char) :
    ∃ hle, nextItem false (',' :: (chars v ++ more)) = .ok (.item (chars v ++ more) hle) := by
  obtain ⟨c, cs, hchars, hspace, hend⟩ := h.begins
  refine ⟨Nat.le_succ _, ?_⟩
  rw [hchars, List.cons_append, nextItem]
  split
  · next h => cases h
  · next h =>
    cases h
    rw [if_neg (by decide), if_neg Bool.false_ne_true, if_pos rfl]
    split
    · next h =>
      rw [skipSpace_cons hspace] at h
      cases h
    · next h =>
      rw [skipSpace_cons hspace] at h
      cases h
      rw [if_neg hend]

theorem items_finished (first : Bool) (rest : List Char) :
    Gives (items depth first (']' :: rest)) [] rest := by
  refine ⟨length_lt_cons ']' rest, ?_⟩
  rw [items, nextItem_finished, ok_bind]
  rfl

theorem items_item {first : Bool} {cs more : List Char} {v : Json} {vs : List Json}
    (hnext : ∃ hle, nextItem first cs = .ok (.item (chars v ++ more) hle))
    (hv : Gives (value depth (chars v ++ more)) v more)
    (hvs : Gives (items depth false more) vs rest) : Gives (items depth first cs) (v :: vs) rest := by
  obtain ⟨hle, hnext⟩ := hnext
  obtain ⟨hlt, hv⟩ := hv
  obtain ⟨hlt', hvs⟩ := hvs
  refine ⟨by omega, ?_⟩
  rw [items, hnext, ok_bind]
  dsimp only
  rw [hv, ok_bind, hvs]
  rfl

theorem endsNumber_moreItems (vs : List Json) (rest : List Char) :
    EndsNumber (charsOfMoreItems vs ++ ']' :: rest) := by
  cases vs with
  | nil => exact endsNumber_cons _ (by decide)
  | cons v vs => exact endsNumber_cons _ (by decide)

/-- The items that follow the first are read back, up to the end of the array. -/
theorem items_more {vs : List Json} (h : ∀ v ∈ vs, ReadBack depth v) (rest : List Char) :
    Gives (items depth false (charsOfMoreItems vs ++ ']' :: rest)) vs rest := by
  induction vs with
  | nil => exact items_finished false rest
  | cons v vs ih =>
    obtain ⟨hv, hvs⟩ := List.forall_mem_cons.1 h
    rw [charsOfMoreItems, charsOfItems_cons, List.cons_append, List.append_assoc]
    exact items_item (hv.nextItem_more _) (hv.gives _ (endsNumber_moreItems vs rest)) (ih hvs)

theorem items_first {vs : List Json} (h : ∀ v ∈ vs, ReadBack depth v) (rest : List Char) :
    Gives (items depth true (charsOfItems vs ++ ']' :: rest)) vs rest := by
  cases vs with
  | nil => exact items_finished true rest
  | cons v vs =>
    obtain ⟨hv, hvs⟩ := List.forall_mem_cons.1 h
    rw [charsOfItems_cons, List.append_assoc]
    exact items_item (hv.nextItem_first _) (hv.gives _ (endsNumber_moreItems vs rest))
      (items_more hvs rest)

theorem readBack_array {vs : List Json} (h : ∀ v ∈ vs, ReadBack (depth + 1) v) :
    ReadBack (depth + 2) (.array vs) where
  begins := ⟨'[', _, rfl, by decide, by decide⟩
  gives := by
    intro rest _
    have htext : chars (.array vs) ++ rest = '[' :: (charsOfItems vs ++ ']' :: rest) := by
      simp [chars]
    have hgives := (items_first h rest).map_widen Json.array
      (Nat.le_of_lt (length_lt_cons '[' _))
    rw [htext, value_cons (by decide)]
    simpa using hgives

/-! ### Objects -/

/-- The characters of the fields that follow the first. -/
def charsOfMoreFields : List (String × Json) → List Char
  | [] => []
  | f :: fs => ',' :: charsOfFields (f :: fs)

/-- The characters of a name, from after its opening quote, and the colon, in front of a text. -/
def nameChars (name : String) (more : List Char) : List Char :=
  name.toList.flatMap escape ++ '\x22' :: ':' :: more

theorem charsOfFields_cons (name : String) (v : Json) (fs : List (String × Json)) :
    charsOfFields ((name, v) :: fs) =
      '\x22' :: nameChars name (chars v ++ charsOfMoreFields fs) := by
  cases fs <;> simp [charsOfFields, charsOfMoreFields, quote, nameChars]

theorem nameChars_append (name : String) (more rest : List Char) :
    nameChars name more ++ rest = nameChars name (more ++ rest) := by
  simp [nameChars]

theorem fieldName_nameChars (name : String) (more : List Char) :
    Gives (fieldName (nameChars name more)) name more := by
  obtain ⟨hlt, h⟩ := stringChars_escape name.toList (':' :: more)
  rw [nameChars]
  refine ⟨Nat.lt_trans (Nat.lt_succ_self _) hlt, ?_⟩
  rw [fieldName, h, ok_bind]
  dsimp only
  split
  · next h => cases h
  · next h =>
    cases h
    rw [if_pos rfl, String.ofList_toList]
    rfl

theorem nextField_finished (first : Bool) (rest : List Char) :
    nextField first ('\x7d' :: rest) = .ok (.finished rest (length_lt_cons '\x7d' rest)) := by
  rw [nextField]
  split
  · next h => cases h
  · next h =>
    cases h
    rw [if_pos rfl]

theorem nextField_first (name : String) (more : List Char) :
    ∃ h, nextField true ('\x22' :: nameChars name more) = .ok (.field name more h) := by
  obtain ⟨hlt, hname⟩ := fieldName_nameChars name more
  refine ⟨hlt, ?_⟩
  rw [nextField]
  split
  · next h => cases h
  · next h =>
    cases h
    rw [if_neg (by decide), if_pos rfl, if_pos rfl, hname, ok_bind]
    rfl

theorem nextField_more (name : String) (more : List Char) :
    ∃ h, nextField false (',' :: '\x22' :: nameChars name more) = .ok (.field name more h) := by
  obtain ⟨hlt, hname⟩ := fieldName_nameChars name more
  refine ⟨Nat.lt_succ_of_lt hlt, ?_⟩
  rw [nextField]
  split
  · next h => cases h
  · next h =>
    cases h
    rw [if_neg (by decide), if_neg Bool.false_ne_true, if_pos rfl]
    split
    · next h => cases h
    · next h =>
      cases h
      rw [if_pos rfl, hname, ok_bind]
      rfl

theorem fields_finished (first : Bool) (rest : List Char) :
    Gives (fields depth first ('\x7d' :: rest)) [] rest := by
  refine ⟨length_lt_cons '\x7d' rest, ?_⟩
  rw [fields, nextField_finished, ok_bind]
  rfl

theorem fields_field {first : Bool} {cs text more : List Char} {name : String} {v : Json}
    {fs : List (String × Json)} (hnext : ∃ h, nextField first cs = .ok (.field name text h))
    (hv : Gives (value depth text) v more) (hfs : Gives (fields depth false more) fs rest) :
    Gives (fields depth first cs) ((name, v) :: fs) rest := by
  obtain ⟨hle, hnext⟩ := hnext
  obtain ⟨hlt, hv⟩ := hv
  obtain ⟨hlt', hfs⟩ := hfs
  refine ⟨by omega, ?_⟩
  rw [fields, hnext, ok_bind]
  dsimp only
  rw [hv, ok_bind, hfs]
  rfl

theorem endsNumber_moreFields (fs : List (String × Json)) (rest : List Char) :
    EndsNumber (charsOfMoreFields fs ++ '\x7d' :: rest) := by
  cases fs with
  | nil => exact endsNumber_cons _ (by decide)
  | cons f fs => exact endsNumber_cons _ (by decide)

/-- The fields that follow the first are read back, up to the end of the object. -/
theorem fields_more {fs : List (String × Json)} (h : ∀ f ∈ fs, ReadBack depth f.2)
    (rest : List Char) :
    Gives (fields depth false (charsOfMoreFields fs ++ '\x7d' :: rest)) fs rest := by
  induction fs with
  | nil => exact fields_finished false rest
  | cons f fs ih =>
    obtain ⟨name, v⟩ := f
    obtain ⟨hv, hfs⟩ := List.forall_mem_cons.1 h
    rw [charsOfMoreFields, charsOfFields_cons, List.cons_append, List.cons_append,
      nameChars_append, List.append_assoc]
    exact fields_field (nextField_more name _) (hv.gives _ (endsNumber_moreFields fs rest)) (ih hfs)

theorem fields_first {fs : List (String × Json)} (h : ∀ f ∈ fs, ReadBack depth f.2)
    (rest : List Char) :
    Gives (fields depth true (charsOfFields fs ++ '\x7d' :: rest)) fs rest := by
  cases fs with
  | nil => exact fields_finished true rest
  | cons f fs =>
    obtain ⟨name, v⟩ := f
    obtain ⟨hv, hfs⟩ := List.forall_mem_cons.1 h
    rw [charsOfFields_cons, List.cons_append, nameChars_append, List.append_assoc]
    exact fields_field (nextField_first name _) (hv.gives _ (endsNumber_moreFields fs rest))
      (fields_more hfs rest)

/-- An object is read with its fields put in order. -/
theorem value_object {fs : List (String × Json)} (h : ∀ f ∈ fs, ReadBack (depth + 1) f.2)
    (rest : List Char) :
    Gives (value (depth + 2) (chars (.object fs) ++ rest)) (.object (Fields.ofList fs)) rest := by
  have htext : chars (.object fs) ++ rest = '\x7b' :: (charsOfFields fs ++ '\x7d' :: rest) := by
    simp [chars]
  have hgives := (fields_first h rest).map_widen (fun fs => Json.object (Fields.ofList fs))
    (Nat.le_of_lt (length_lt_cons '\x7b' _))
  rw [htext, value_cons (by decide)]
  simpa using hgives

theorem readBack_object {fs : List (String × Json)} (hs : Fields.Sorted fs)
    (h : ∀ f ∈ fs, ReadBack (depth + 1) f.2) : ReadBack (depth + 2) (.object fs) where
  begins := ⟨'\x7b', _, rfl, by decide, by decide⟩
  gives := by
    intro rest _
    have hgives := value_object h rest
    rwa [hs.ofList_eq] at hgives

/-! ### Whole texts -/

/-- The value nests at most `depth` deep, its numbers are integers of 64 bits, signed or not, and its
objects have their fields in order. -/
inductive Canonical : Nat → Json → Prop where
  /-- Null. -/
  | null {depth : Nat} : Canonical depth .null
  /-- A truth value. -/
  | bool {depth : Nat} (b : Bool) : Canonical depth (.bool b)
  /-- An integer. -/
  | int {depth : Nat} {n : Int} (hmin : -(Number.minSigned : Int) ≤ n) (hmax : n ≤ Number.maxWord) :
      Canonical depth (.number (.int n))
  /-- A string. -/
  | string {depth : Nat} (s : String) : Canonical depth (.string s)
  /-- An array. -/
  | array {depth : Nat} {items : List Json} (h : ∀ v ∈ items, Canonical depth v) :
      Canonical (depth + 1) (.array items)
  /-- An object. -/
  | object {depth : Nat} {fields : List (String × Json)} (hs : Fields.Sorted fields)
      (h : ∀ f ∈ fields, Canonical depth f.2) : Canonical (depth + 1) (.object fields)

theorem Canonical.readBack {v : Json} (h : Canonical depth v) : ReadBack (depth + 1) v := by
  induction h with
  | null => exact readBack_null _
  | bool b => exact readBack_bool _ b
  | int hmin hmax => exact readBack_int _ hmin hmax
  | string s => exact readBack_string _ s
  | array _ ih => exact readBack_array ih
  | object hs _ ih => exact readBack_object hs ih

theorem read_of_gives {v w : Json} (h : Gives (value depthLimit (chars v)) w []) :
    read v.text = .ok w := by
  obtain ⟨hlt, h⟩ := h
  have hended : ended [] = .ok () := by decide
  rw [read, text, String.toList_ofList, mapError_eq_ok_iff, readChars, h, ok_bind, hended]
  rfl

/-- **The text of a value is read back as the value.** -/
theorem read_text {v : Json} (h : Canonical (depthLimit - 1) v) : read v.text = .ok v := by
  have hgives := h.readBack.gives [] endsNumber_nil
  rw [List.append_nil] at hgives
  exact read_of_gives hgives

/-- The text of an object is read back as the object with its fields in order. -/
theorem read_text_object {fs : List (String × Json)}
    (h : ∀ f ∈ fs, Canonical (depthLimit - 2) f.2) :
    read (object fs).text = .ok (object (Fields.ofList fs)) := by
  have hgives := @value_object (depthLimit - 2) fs (fun f hf => (h f hf).readBack) []
  rw [List.append_nil] at hgives
  exact read_of_gives hgives

end Json

end Stencil
