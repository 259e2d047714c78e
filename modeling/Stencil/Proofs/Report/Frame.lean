import Stencil.Proofs.Report.Line
import Stencil.Report

/-!
# The frame of a report

The report of a failure begins with its message and the top of a frame, which names the source and a
line and a column of it. This place can be seen from the text of the report alone
(`Report.frameTop_inj`, `Diagnostic.Shows.unique`). It is where the label starts in the line that is
found for it, both counted from one, and there is a frame exactly if the label ends in the source
(`Diagnostic.shows_iff`).
-/

namespace Stencil

/-! ### The text of a frame -/

namespace Report

theorem toList_times_blank (n : Nat) : (times n " ").toList = List.replicate n ' ' := by
  rw [times, String.toList_join]
  induction n with
  | zero => rfl
  | succ n ih =>
    rw [List.replicate_succ, List.flatMap_cons, ih]
    rfl

/-- Where a stretch of characters with a property ends is seen from the characters alone. -/
theorem append_cons_inj {p : Char → Prop} {a b r s : List Char} {c d : Char} (ha : ∀ x ∈ a, p x)
    (hb : ∀ x ∈ b, p x) (hc : ¬ p c) (hd : ¬ p d) (h : a ++ c :: r = b ++ d :: s) :
    a = b ∧ c :: r = d :: s := by
  induction a generalizing b with
  | nil =>
    cases b with
    | nil => exact ⟨rfl, h⟩
    | cons y b =>
      rw [List.nil_append, List.cons_append, List.cons.injEq] at h
      obtain ⟨rfl, -⟩ := h
      exact absurd (hb _ List.mem_cons_self) hc
  | cons x a ih =>
    cases b with
    | nil =>
      rw [List.nil_append, List.cons_append, List.cons.injEq] at h
      obtain ⟨rfl, -⟩ := h
      exact absurd (ha _ List.mem_cons_self) hd
    | cons y b =>
      rw [List.cons_append, List.cons_append, List.cons.injEq] at h
      obtain ⟨rfl, h⟩ := h
      obtain ⟨rfl, hends⟩ := ih (List.forall_mem_cons.1 ha).2 (List.forall_mem_cons.1 hb).2 h
      exact ⟨rfl, hends⟩

theorem toString_inj {m n : Nat} (h : (toString m).toList = (toString n).toList) : m = n := by
  have hdigits : Nat.toDigits 10 m = Nat.toDigits 10 n := by
    rwa [Nat.toString_eq_repr, Nat.toString_eq_repr, Nat.toList_repr, Nat.toList_repr] at h
  have hvalue := congrArg (Nat.ofDigitChars 10 · 0) hdigits
  rwa [Nat.ofDigitChars_ten_toDigits, Nat.ofDigitChars_ten_toDigits] at hvalue

theorem isDigit_of_mem_toString {n : Nat} : ∀ c ∈ (toString n).toList, c.isDigit = true := by
  intro c hc
  rw [Nat.toString_eq_repr, Nat.toList_repr] at hc
  exact Nat.isDigit_of_mem_toDigits (by decide) (by decide) hc

/-- The characters of the top left corner of a frame behind the first of them, which begins an escape
sequence. -/
def corner : List Char :=
  (paint .margin "╭" ++ paint .margin "─" ++ paint .margin "[").toList.tail

theorem cons_corner :
    '\x1b' :: corner = (paint .margin "╭" ++ paint .margin "─" ++ paint .margin "[").toList := by
  decide

/-- The characters of the top of a frame around the place that it shows. -/
theorem exists_toList_frameTop (width : Nat) (name : String) (place : Nat × Nat) :
    ∃ after, (frameTop width name place).toList =
      List.replicate (width + 2) ' ' ++ '\x1b' :: (corner ++ name.toList ++ ':' ::
        ((toString place.1).toList ++ ':' :: ((toString place.2).toList ++ '\x1b' :: after))) := by
  have hafter : ∃ after, '\x1b' :: after = (paint .margin "]").toList :=
    ⟨(paint .margin "]").toList.tail, by decide⟩
  obtain ⟨after, hafter⟩ := hafter
  refine ⟨after ++ "\n".toList ++ (times (width + 2) " ").toList ++
    (paint .margin "│").toList ++ "\n".toList, ?_⟩
  have hcolon : (":" : String).toList = [':'] := by decide
  have hcorner := cons_corner
  simp only [String.toList_append] at hcorner
  simp only [frameTop, String.toList_append, toList_times_blank, hcolon, ← hafter,
    ← List.cons_append, hcorner]
  simp only [List.append_assoc, List.nil_append, List.cons_append]

/-- The top of a frame tells the place that it shows. -/
theorem frameTop_inj {width width' : Nat} {name after after' : String} {place place' : Nat × Nat}
    (h : frameTop width name place ++ after = frameTop width' name place' ++ after') :
    place = place' := by
  obtain ⟨more, hmore⟩ := exists_toList_frameTop width name place
  obtain ⟨more', hmore'⟩ := exists_toList_frameTop width' name place'
  have hlists := congrArg String.toList h
  rw [String.toList_append, String.toList_append, hmore, hmore'] at hlists
  simp only [List.append_assoc, List.cons_append] at hlists
  have hblank : ∀ n, ∀ x ∈ List.replicate n ' ', x = ' ' := fun n x => List.eq_of_mem_replicate
  obtain ⟨-, hlists⟩ := append_cons_inj (hblank _) (hblank _) (by decide) (by decide) hlists
  have hplaces := List.append_cancel_left (List.append_cancel_left (List.cons.inj hlists).2)
  obtain ⟨hline, hlists⟩ := append_cons_inj isDigit_of_mem_toString isDigit_of_mem_toString
    (by decide) (by decide) (List.cons.inj hplaces).2
  obtain ⟨hcolumn, -⟩ := append_cons_inj isDigit_of_mem_toString isDigit_of_mem_toString
    (by decide) (by decide) (List.cons.inj hlists).2
  exact Prod.ext (toString_inj hline) (toString_inj hcolumn)

/-- The label is drawn if it lies in the source, and the frame then shows the place where it starts in
the line that is found for it. -/
theorem labelled?_eq_some_iff {label : Label} {source : List Char} (hs : source ≠ [])
    (hlabel : label.start < label.stop) {first last : SourceLine} :
    labelled? label source = some (first, last) ↔
      label.stop ≤ source.length + 1 ∧
        SourceLine.containing? label.start (SourceLine.ofSource source) = some first ∧
        SourceLine.containing? label.last (SourceLine.ofSource source) = some last := by
  have hlast : label.last = label.stop - 1 := by
    rw [Label.last]
    omega
  have hempty : source.isEmpty = false := by simpa using hs
  rw [labelled?, hempty, hlast]
  simp only [Bool.false_or, Bool.or_eq_true, decide_eq_true_eq, Option.bind_eq_bind,
    Option.pure_def]
  split
  · simp only [reduceCtorEq, false_iff, not_and]
    omega
  · rw [Option.bind_eq_some_iff]
    constructor
    · rintro ⟨first', hf, h⟩
      obtain ⟨last', hl, h⟩ := Option.bind_eq_some_iff.1 h
      cases h
      exact ⟨by omega, hf, hl⟩
    · rintro ⟨-, hf, hl⟩
      exact ⟨first, hf, Option.bind_eq_some_iff.2 ⟨last, hl, rfl⟩⟩

end Report

/-- The report of a failure begins with its message and a frame that shows the line and the column
`place`. -/
def Diagnostic.Shows (d : Diagnostic) (source name : String) (place : Nat × Nat) : Prop :=
  ∃ width more, d.report? source name =
    some (Report.header d.message ++ (Report.frameTop width name place ++ more))

namespace Diagnostic

variable {d : Diagnostic} {source name : String} {span : Span} {place : Nat × Nat}

theorem shows_iff (hs : d.span = some span) (hlt : span.start < span.stop)
    (hne : source.toList ≠ []) :
    d.Shows source name place ↔
      span.stop ≤ source.toList.length + 1 ∧ ∃ line,
        SourceLine.containing? span.start (SourceLine.ofSource source.toList) = some line ∧
          place = (line.index + 1, span.start - line.start + 1) := by
  have hreport : d.report? source name = some (Report.header d.message ++
      Report.excerpt name ⟨span.start, span.stop, d.kind.name⟩ source.toList) := by
    rw [report?, hs]
    exact if_neg (Nat.not_lt_of_le (Nat.le_of_lt hlt))
  have hlines : ∀ n, ∃ l, SourceLine.containing? n (SourceLine.ofSource source.toList) = some l :=
    fun n => Option.ne_none_iff_exists'.1 (SourceLine.containing?_ne_none n hne)
  have hfound : ∀ {first last}, Report.labelled? ⟨span.start, span.stop, d.kind.name⟩
      source.toList = some (first, last) ↔ _ := Report.labelled?_eq_some_iff hne hlt
  rw [Shows, hreport]
  constructor
  · rintro ⟨width, more, h⟩
    have hexcerpt := (String.append_right_inj _).1 (Option.some.inj h)
    rw [Report.excerpt] at hexcerpt
    split at hexcerpt
    · -- nothing is drawn, not even the frame
      have hlength := congrArg (fun s => s.toList.length) hexcerpt
      obtain ⟨after, hafter⟩ := Report.exists_toList_frameTop width name place
      simp [hafter] at hlength
    · next first last hlabelled =>
      obtain ⟨hstop, hfirst, -⟩ := hfound.1 hlabelled
      rw [String.append_assoc] at hexcerpt
      exact ⟨hstop, first, hfirst, (Report.frameTop_inj hexcerpt).symm⟩
  · rintro ⟨hstop, first, hfirst, rfl⟩
    obtain ⟨last, hlast⟩ := hlines (max span.start (span.stop - 1))
    rw [Report.excerpt, hfound.2 ⟨hstop, hfirst, hlast⟩]
    dsimp only
    rw [String.append_assoc]
    exact ⟨_, _, rfl⟩

theorem Shows.unique {place' : Nat × Nat} (h : d.Shows source name place)
    (h' : d.Shows source name place') : place = place' := by
  obtain ⟨width, more, h⟩ := h
  obtain ⟨width', more', h'⟩ := h'
  have heq := Option.some.inj (h.symm.trans h')
  exact Report.frameTop_inj ((String.append_right_inj _).1 heq)

end Diagnostic

end Stencil
