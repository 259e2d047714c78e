import Stencil.Proofs.Printing
import Stencil.Proofs.Token.Concatenation

/-!
# Scanning a printed text

The text of each token inside the markers is read as that token, whatever the quotes about a
string, since blanks come after it; and blanks are skipped. So the tokens of a construct are read
back one by one, up to the marker that closes it (`ScansInside.write`), and literal text before a
construct up to its marker (`Scans.literal_append`).
-/

namespace Stencil

namespace Token

/-! ### Strings -/

theorem unescape_escape {q : Char} (cs : List Char) : unescape (escape q cs) = cs := by
  induction cs with
  | nil => rfl
  | cons c cs ih =>
    rw [escape, List.flatMap_cons]
    by_cases h : c = '\\' ∨ c = q
    · rw [if_pos h]
      exact congrArg (c :: ·) ih
    · rw [if_neg h]
      refine Eq.trans ?_ (congrArg (c :: ·) ih)
      rw [List.singleton_append, unescape]
      · rfl
      · rintro d ds rfl
        exact absurd (.inl rfl) h
      · rintro rfl
        exact absurd (.inl rfl) h

theorem body_escape {q : Char} (hq : q ≠ '\n') (cs : List Char) : Quoted.Body q (escape q cs) := by
  induction cs with
  | nil => exact .nil
  | cons c cs ih =>
    rw [escape, List.flatMap_cons]
    by_cases h : c = '\\' ∨ c = q
    · rw [if_pos h]
      refine .escape ?_ ih
      rcases h with rfl | rfl
      · decide
      · exact hq
    · rw [if_neg h]
      rw [not_or] at h
      exact .plain h.1 h.2 ih

/-! ### Tokens between the markers -/

/-- A token that is printed between the markers of a construct. -/
def Inner : Token → Prop
  | keyword _ | notOp | andOp | orOp | parenOpen | parenClose | string _ => True
  | var name => Condition.IsName name
  | _ => False

theorem Inner.inside {t : Token} (h : t.Inner) (k : Construct) : Inside k t := by
  cases t <;> simp only [Inner] at h <;> cases k <;> simp [Inside, Construct.closeToken]

theorem Inner.spaced {t : Token} (h : t.Inner) : t.spaced = true := by
  cases t <;> simp only [Inner] at h <;> rfl

/-- A token is spelled as it is written, whatever the quotes. -/
theorem Inner.spelled {t : Token} (h : t.Inner) (q : Quote) : t.Spelled (t.written q) := by
  cases t with
  | keyword k => exact spelled_keyword k
  | notOp => exact @spelled_word 'n' ['o', 't'] rfl rfl
  | andOp => exact @spelled_word 'a' ['n', 'd'] rfl rfl
  | orOp => exact @spelled_word 'o' ['r'] rfl rfl
  | parenOpen => exact .parenOpen
  | parenClose => exact .parenClose
  | var name =>
    obtain ⟨c, cs, rfl, hc, hcs⟩ := h
    rw [written, String.toList_ofList]
    exact .var hc hcs
  | string value =>
    have hs : Spelled (.string (String.ofList (unescape (escape q.mark value.toList))))
        (q.mark :: escape q.mark value.toList ++ [q.mark]) :=
      .string (by cases q <;> simp [Quote.mark]) (body_escape (by cases q <;> decide) _)
    rwa [unescape_escape, String.ofList_toList] at hs
  | _ => exact absurd h id

/-! ### Constructs -/

theorem Scans.gap {g : List Char} (hg : ∀ c ∈ g, isBlank c) {k : Construct} {start pos : Nat}
    {cs : List Char} {ts : List (Spanned Token)}
    (h : Scans (.inside k start) (pos + Text.size g) cs ts) :
    Scans (.inside k start) pos (g ++ cs) ts := by
  induction g generalizing pos with
  | nil => exact h
  | cons c g ih =>
    rw [Text.size_cons, ← Nat.add_assoc] at h
    exact .blank (hg c List.mem_cons_self) (ih (fun d hd => hg d (List.mem_cons_of_mem _ hd)) h)

/-- Wherever the text `cs` stands inside a construct `k`, it is scanned into the tokens `ts`. -/
def ScansInside (k : Construct) (cs : List Char) (ts : List Token) : Prop :=
  ∀ start pos, ∃ us, Scans (.inside k start) pos cs us ∧ us.map (·.node) = ts

/-- Wherever the text `cs` stands outside the markers, it is scanned into the tokens `ts`. -/
def ScansOutside (cs : List Char) (ts : List Token) : Prop :=
  ∀ pos, ∃ us, Scans .outside pos cs us ∧ us.map (·.node) = ts

/-- Blanks end a token, whatever it ends in. -/
theorem endsBefore_gap (text : List Char) (g : Gap) (rest : List Char) :
    EndsBefore text (g.text ++ rest) := by
  intro a _ b hb _
  obtain ⟨c, cs, hg⟩ := List.exists_cons_of_ne_nil g.text_ne_nil
  rw [hg, List.cons_append, List.head?_cons, Option.mem_some_iff] at hb
  have hblank := g.isBlank_of_mem c (hg ▸ List.mem_cons_self)
  rw [hb] at hblank
  simp only [isBlank, Bool.or_eq_true, beq_iff_eq] at hblank
  rcases hblank with ((rfl | rfl) | rfl) | rfl <;> rfl

variable {style : Style} {n : Nat} {ts : List Token}

theorem ScansInside.cons {k : Construct} {t : Token} (ht : t.Inner)
    (h : ScansInside k (write style (n + 1) ts) ts) :
    ScansInside k (write style n (t :: ts)) (t :: ts) := by
  intro start pos
  obtain ⟨us, hs, rfl⟩ :=
    h start (pos + Text.size (t.written (style.quote n)) + Text.size (style.gap n).text)
  rw [write, if_pos ht.spaced, List.append_assoc]
  exact ⟨_, .inner (ht.spelled _) (endsBefore_gap _ _ _) (ht.inside k).1
    (.gap (style.gap n).isBlank_of_mem hs), rfl⟩

/-- The tokens between the markers are read back one by one. -/
theorem ScansInside.append {k : Construct} {inner : List Token} (hi : ∀ t ∈ inner, t.Inner)
    (h : ∀ n, ScansInside k (write style n ts) ts) (n : Nat) :
    ScansInside k (write style n (inner ++ ts)) (inner ++ ts) := by
  induction inner generalizing n with
  | nil => exact h n
  | cons t inner ih =>
    exact .cons (hi t List.mem_cons_self)
      (ih (fun t ht => hi t (List.mem_cons_of_mem _ ht)) (n + 1))

theorem ScansOutside.close (h : ScansOutside (write style (n + 1) ts) ts) (k : Construct) :
    ScansInside k (write style n (k.closeToken :: ts)) (k.closeToken :: ts) := by
  intro start pos
  obtain ⟨us, hs, rfl⟩ := h (pos + Construct.markSize)
  have hw : write style n (k.closeToken :: us.map (·.node)) =
      k.closeText ++ write style (n + 1) (us.map (·.node)) := by
    cases k <;> rfl
  rw [hw]
  exact ⟨_, .closing hs, rfl⟩

theorem write_openToken (k : Construct) :
    write style n (k.openToken :: ts) =
      k.openText ++ ((style.gap n).text ++ write style (n + 1) ts) := by
  cases k <;> rfl

theorem ScansInside.open {k : Construct} (h : ScansInside k (write style (n + 1) ts) ts) :
    ScansOutside (write style n (k.openToken :: ts)) (k.openToken :: ts) := by
  intro pos
  obtain ⟨us, hs, rfl⟩ := h pos (pos + Construct.markSize + Text.size (style.gap n).text)
  have hm : nextMarker (k.openText ++
      ((style.gap n).text ++ write style (n + 1) (us.map (·.node)))) =
      some ([], k, (style.gap n).text ++ write style (n + 1) (us.map (·.node))) := by
    cases k <;> rfl
  rw [write_openToken]
  exact ⟨_, .opening hm (.gap (style.gap n).isBlank_of_mem hs), rfl⟩

/-- A construct is read back, and what comes after it as if it stood alone. -/
theorem ScansOutside.construct {k : Construct} {inner : List Token} (hi : ∀ t ∈ inner, t.Inner)
    (h : ∀ n, ScansOutside (write style n ts) ts) (n : Nat) :
    ScansOutside (write style n (k.enclose inner ++ ts)) (k.enclose inner ++ ts) := by
  rw [Construct.enclose, List.cons_append, List.append_assoc, List.singleton_append]
  exact ScansInside.open (.append hi (fun n => (h (n + 1)).close k) (n + 1))

/-! ### Literal text -/

theorem nextMarker_of_isLiteralText {s : String} (h : IsLiteralText s) :
    nextMarker s.toList = none :=
  nextMarker_eq_none_iff.2 h.2

/-- Literal text is read back if a construct comes next, or nothing. -/
theorem ScansOutside.text {s : String} (hl : IsLiteralText s)
    (ht : ∀ t ∈ ts.head?, s.toList.getLast? ≠ some '[' ∧ ∀ v, t ≠ .text v)
    (h : ScansOutside (write style (n + 1) ts) ts) :
    ScansOutside (write style n (.text s :: ts)) (.text s :: ts) := by
  intro pos
  obtain ⟨us, hs, rfl⟩ := h (pos + Text.size s.toList)
  have hne : s.toList ≠ [] := fun he => hl.1 (String.toList_inj.1 he)
  have hseam : Seam s.toList (write style (n + 1) (us.map (·.node))) := by
    rintro ⟨hlast, hhead⟩
    cases us with
    | nil => simp [write] at hhead
    | cons u us => exact (ht u.node (by simp)).1 hlast
  have hfirst : ∀ u ∈ us.head?, Literal.text? u = none := by
    intro u hu
    refine text?_token_eq_none fun v => (ht u.node ?_).2 v
    rw [List.head?_map, Option.mem_def, Option.mem_def.1 hu, Option.map_some]
  have hlit : literal pos s.toList = [⟨.text s, pos, pos + Text.size s.toList⟩] := by
    simp [literal, hne]
  have hscan : Scans .outside pos s.toList (literal pos s.toList) :=
    .rest (nextMarker_of_isLiteralText hl)
  have happ := scanFrom_append hscan hseam
  rw [scanFrom_of_scans hs, map_ok, hlit, weld_of_head? hfirst, scanFrom_eq_ok_iff] at happ
  have hw : write style n (.text s :: us.map (·.node)) =
      s.toList ++ write style (n + 1) (us.map (·.node)) := by
    simp [write, written, spaced]
  rw [hw]
  exact ⟨_, happ, rfl⟩

theorem scansOutside_nil : ScansOutside [] [] := fun _ => ⟨_, .rest rfl, rfl⟩

end Token

end Stencil
