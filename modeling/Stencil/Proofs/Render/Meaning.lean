import Mathlib.Tactic.MkIffOfInductiveProp
import Stencil.Proofs.Render.Walk

/-!
# The meaning of a template

What a template means is said here without limits: which text its nodes contribute, with every
include in the place where it is named, how many includes there are in this and how deep they
nest. A template that includes itself means nothing, nor does one with an include that leads
nowhere or does not parse.

A render gives a text exactly if this is what the template means and the limits leave room for
it (`document_result_eq_ok_iff`).
-/

namespace Stencil

/-! ### Conditions -/

namespace Condition

mutual

/-- A condition is true if the names that are true are those that `truthy` accepts. -/
def Sat (truthy : String → Bool) : Condition → Prop
  | param name => truthy name = true
  | not c => ¬ Sat truthy c
  | and cs => SatAll truthy cs
  | or cs => SatSome truthy cs

/-- Every condition of a list is true. -/
def SatAll (truthy : String → Bool) : List Condition → Prop
  | [] => True
  | c :: cs => Sat truthy c ∧ SatAll truthy cs

/-- Some condition of a list is true. -/
def SatSome (truthy : String → Bool) : List Condition → Prop
  | [] => False
  | c :: cs => Sat truthy c ∨ SatSome truthy cs

end

mutual

theorem holds_iff_sat (truthy : String → Bool) : ∀ c, holds truthy c = true ↔ Sat truthy c
  | param name => Iff.rfl
  | not c => by
    rw [holds, Sat, ← holds_iff_sat truthy c]
    simp
  | and cs => by
    rw [holds, Sat]
    exact allHold_iff_satAll truthy cs
  | or cs => by
    rw [holds, Sat]
    exact anyHolds_iff_satSome truthy cs

theorem allHold_iff_satAll (truthy : String → Bool) :
    ∀ cs, allHold truthy cs = true ↔ SatAll truthy cs
  | [] => by simp [allHold, SatAll]
  | c :: cs => by
    rw [allHold, SatAll, Bool.and_eq_true, holds_iff_sat truthy c, allHold_iff_satAll truthy cs]

theorem anyHolds_iff_satSome (truthy : String → Bool) :
    ∀ cs, anyHolds truthy cs = true ↔ SatSome truthy cs
  | [] => by simp [anyHolds, SatSome]
  | c :: cs => by
    rw [anyHolds, SatSome, Bool.or_eq_true, holds_iff_sat truthy c, anyHolds_iff_satSome truthy cs]

end

end Condition

/-! ### Meaning -/

/-- What nodes contribute. -/
structure Meaning where
  /-- Their text. -/
  text : String
  /-- How many includes there are. -/
  includes : Nat
  /-- How deep they nest. -/
  depth : Nat

namespace Meaning

/-- A text without includes. -/
def ofText (text : String) : Meaning := ⟨text, 0, 0⟩

/-- One contribution after another. -/
def andThen (a b : Meaning) : Meaning :=
  ⟨a.text ++ b.text, a.includes + b.includes, max a.depth b.depth⟩

/-- The contribution of an include whose nodes contribute `m`. -/
def included (m : Meaning) : Meaning := ⟨m.text, m.includes + 1, m.depth + 1⟩

end Meaning

/-- The body that is taken: that of the first branch whose condition is true, else the last part. -/
inductive Selects (truthy : String → Bool) (otherwise : Option (List Node)) :
    List Branch → Option (List Node) → Prop where
  /-- No branch is left. -/
  | nil : Selects truthy otherwise [] otherwise
  /-- The condition of the first branch is true. -/
  | here {b : Branch} {bs : List Branch} (h : b.condition.Sat truthy) :
      Selects truthy otherwise (b :: bs) (some b.body)
  /-- It is not. -/
  | there {b : Branch} {bs : List Branch} {body : Option (List Node)} (h : ¬ b.condition.Sat truthy)
      (hs : Selects truthy otherwise bs body) : Selects truthy otherwise (b :: bs) body

section

variable (params : Params) (mode : Mode) (resolver : Resolver) (nesting : Nat)

mutual

/-- Inside the includes with these keys, a node contributes this. -/
inductive Node.Means : List String → Node → Meaning → Prop where
  /-- Literal text contributes itself. -/
  | literal {keys : List String} {text : String} {span : Span} :
      Means keys (.literal text span) (.ofText text)
  /-- An interpolation contributes the value of its parameter, as the mode has it. -/
  | interpolation {keys : List String} {name : String} {span : Span} :
      Means keys (.interpolation name span) (.ofText (mode.substitute (params.text name)))
  /-- A conditional contributes nothing if there is nothing to take. -/
  | skipped {keys : List String} {branches : List Branch}
      {otherwise : Option (List Node)} {span : Span}
      (hs : Selects params.truthy otherwise branches none) :
      Means keys (.conditional branches otherwise span) (.ofText "")
  /-- A conditional contributes the body that is taken. -/
  | taken {keys : List String} {branches : List Branch}
      {otherwise : Option (List Node)} {span : Span}
      {body : List Node} {m : Meaning} (hs : Selects params.truthy otherwise branches (some body))
      (hb : AllMean keys body m) : Means keys (.conditional branches otherwise span) m
  /-- An include contributes the nodes of the template it leads to, which is none of the open
  ones. -/
  | inclusion {keys : List String} {path : String} {span : Span} {r : Resolved}
      {d : Document} {m : Meaning}
      (hr : resolver path = .ok r) (hk : r.key ∉ keys)
      (hp : Document.parse nesting r.content = .ok d)
      (hd : AllMean (r.key :: keys) d.nodes m) : Means keys (.inclusion path span) m.included

/-- Inside the includes with these keys, nodes contribute this. -/
inductive Node.AllMean : List String → List Node → Meaning → Prop where
  /-- No nodes contribute nothing. -/
  | nil {keys : List String} : AllMean keys [] (.ofText "")
  /-- The first contributes before the others. -/
  | cons {keys : List String} {n : Node} {ns : List Node} {a b : Meaning} (hn : Means keys n a)
      (hns : AllMean keys ns b) : AllMean keys (n :: ns) (a.andThen b)

end

end

namespace Render

/-! ### Limits -/

/-- The progress of a render after a contribution. -/
def Progress.add (p : Progress) (m : Meaning) : Progress :=
  ⟨p.output ++ m.text, p.includes + m.includes, p.cache⟩

theorem Progress.add_andThen (p : Progress) (a b : Meaning) :
    p.add (a.andThen b) = (p.add a).add b := by
  simp only [add, Meaning.andThen, String.append_assoc, Nat.add_assoc]

theorem Progress.add_ofText (p : Progress) (text : String) :
    p.add (.ofText text) = { p with output := p.output ++ text } := rfl

theorem Progress.add_nothing (p : Progress) : p.add (.ofText "") = p := by
  rw [add_ofText, String.append_empty]

theorem Progress.add_included (p : Progress) (m : Meaning) :
    p.add m.included = add { p with includes := p.includes + 1 } m := by
  simp only [add, Meaning.included, Nat.add_assoc, Nat.add_comm 1]

/-- Inside `opened` includes the limits leave room for a contribution. -/
@[mk_iff]
structure Room (limits : Limits) (opened : Nat) (p : Progress) (m : Meaning) : Prop where
  /-- There are not too many includes. -/
  includes_le : p.includes + m.includes ≤ limits.includes
  /-- They do not nest too deep. -/
  depth_le : opened + m.depth ≤ limits.depth
  /-- The text is not too long. -/
  bytes_le : p.output.utf8ByteSize + m.text.utf8ByteSize ≤ limits.bytes

variable {limits : Limits} {opened : Nat} {p : Progress}

theorem room_andThen_iff {a b : Meaning} :
    Room limits opened p (a.andThen b) ↔
      Room limits opened p a ∧ Room limits opened (p.add a) b := by
  simp only [room_iff, Meaning.andThen, Progress.add, String.utf8ByteSize_append]
  omega

theorem room_included_iff {m : Meaning} (cache : Option Cache) :
    Room limits opened p m.included ↔
      Room limits (opened + 1) ⟨p.output, p.includes + 1, cache⟩ m := by
  simp only [room_iff, Meaning.included]
  omega

/-- Where there is room for a contribution there is room for nothing after it. -/
theorem Room.after {m : Meaning} (h : Room limits opened p m) :
    Room limits opened (p.add m) (.ofText "") := by
  obtain ⟨h₁, h₂, h₃⟩ := h
  constructor <;> simp only [Progress.add, Meaning.ofText, String.utf8ByteSize_append,
    String.utf8ByteSize_empty] <;> omega

/-! ### Renders -/

theorem select_eq_iff {params : Params} {branches : List Branch}
    {otherwise body : Option (List Node)} :
    select params branches otherwise = body ↔ Selects params.truthy otherwise branches body := by
  induction branches with
  | nil =>
    constructor
    · rintro rfl
      exact .nil
    · intro h
      cases h
      rfl
  | cons b bs ih =>
    have htest : b.condition.test params = true ↔ b.condition.Sat params.truthy :=
      Condition.holds_iff_sat ..
    rw [select]
    split
    · next h =>
      constructor
      · rintro rfl
        exact .here (htest.1 h)
      · intro hs
        cases hs with
        | here _ => rfl
        | there hn _ => exact absurd (htest.1 h) hn
    · next h =>
      rw [ih]
      constructor
      · exact .there fun hs => h (htest.2 hs)
      · intro hs
        cases hs with
        | here hs => exact absurd (htest.2 hs) h
        | there _ hs => exact hs

/-- The outcome of a step is a success exactly if there is room for what the step may contribute,
and this is then what it has added. -/
def Gives (limits : Limits) (opened : Nat) (p : Progress) (mean : Meaning → Prop) (o : Outcome) :
    Prop :=
  ∀ q, o = .ok q ↔ ∃ m, mean m ∧ Room limits opened p m ∧ q = p.add m

variable {mean mean' : Meaning → Prop} {o : Outcome}

theorem Gives.congr (h : Gives limits opened p mean o) (hm : ∀ m, mean' m ↔ mean m) :
    Gives limits opened p mean' o := by
  intro q
  rw [h q]
  exact exists_congr fun m => and_congr_left fun _ => (hm m).symm

theorem gives_nothing (hp : Room limits opened p (.ofText "")) :
    Gives limits opened p (· = .ofText "") (.ok p) := by
  intro q
  constructor
  · rintro ⟨⟩
    exact ⟨_, rfl, hp, p.add_nothing.symm⟩
  · rintro ⟨_, rfl, -, rfl⟩
    rw [Progress.add_nothing]

theorem Gives.andThen {next : Progress → Outcome} (ho : Gives limits opened p mean o)
    (hn : ∀ a, Room limits opened p a → Gives limits opened (p.add a) mean' (next (p.add a))) :
    Gives limits opened p (fun m => ∃ a b, mean a ∧ mean' b ∧ m = a.andThen b)
      (o.andThen next) := by
  intro q
  rw [Outcome.andThen_eq_ok_iff]
  constructor
  · rintro ⟨q', hq', hq⟩
    obtain ⟨a, ha, hra, rfl⟩ := (ho q').1 hq'
    obtain ⟨b, hb, hrb, rfl⟩ := (hn a hra q).1 hq
    exact ⟨_, ⟨a, b, ha, hb, rfl⟩, room_andThen_iff.2 ⟨hra, hrb⟩, (p.add_andThen a b).symm⟩
  · rintro ⟨_, ⟨a, b, ha, hb, rfl⟩, hr, rfl⟩
    obtain ⟨hra, hrb⟩ := room_andThen_iff.1 hr
    exact ⟨p.add a, (ho _).2 ⟨a, ha, hra, rfl⟩, (hn a hra _).2 ⟨b, hb, hrb, p.add_andThen a b⟩⟩

variable {job : Job} {frame : Frame}

theorem gives_append (span : Span) (text : String) (hp : Room job.limits opened p (.ofText "")) :
    Gives job.limits opened p (· = .ofText text) (append job frame span text p) := by
  intro q
  obtain ⟨hi, hd, -⟩ := hp
  rw [append_eq_ok_iff, ← Progress.add_ofText]
  constructor
  · rintro ⟨hb, rfl⟩
    exact ⟨_, rfl, ⟨hi, hd, hb⟩, rfl⟩
  · rintro ⟨_, rfl, hr, rfl⟩
    exact ⟨hr.bytes_le, rfl⟩

/-- What nodes of a render mean in a frame. -/
abbrev AllMean (job : Job) (frame : Frame) : List Node → Meaning → Prop :=
  Node.AllMean job.params job.mode job.resolver job.limits.nesting frame.keys

/-- What a node of a render means in a frame. -/
abbrev Means (job : Job) (frame : Frame) : Node → Meaning → Prop :=
  Node.Means job.params job.mode job.resolver job.limits.nesting frame.keys

theorem gives_conditional (branches : List Branch) (otherwise : Option (List Node)) (span : Span)
    (hp : Room job.limits frame.keys.length p (.ofText ""))
    (ih : ∀ body, select job.params branches otherwise = some body →
      Gives job.limits frame.keys.length p (AllMean job frame body) (nodes job frame body p)) :
    Gives job.limits frame.keys.length p (Means job frame (.conditional branches otherwise span))
      (node job frame (.conditional branches otherwise span) p) := by
  rw [node_conditional]
  cases hsel : select job.params branches otherwise with
  | none =>
    refine (gives_nothing hp).congr fun m => ?_
    constructor
    · intro hm
      cases hm with
      | skipped _ => rfl
      | taken hs _ =>
        rw [← select_eq_iff, hsel] at hs
        cases hs
    · rintro rfl
      exact .skipped (select_eq_iff.1 hsel)
  | some body =>
    refine (ih body hsel).congr fun m => ?_
    constructor
    · intro hm
      cases hm with
      | skipped hs =>
        rw [← select_eq_iff, hsel] at hs
        cases hs
      | taken hs hb =>
        rw [← select_eq_iff, hsel, Option.some.injEq] at hs
        exact hs ▸ hb
    · exact .taken (select_eq_iff.1 hsel)

theorem gives_inclusion (path : String) (span : Span) (hc : p.cache = none)
    (hp : Room job.limits frame.keys.length p (.ofText ""))
    (ih : ∀ r d q, frame.keys.length < job.limits.depth →
      fetch job frame span path p = (.ok (r, d), q) → q.cache = none →
      Room job.limits (frame.enter r).keys.length q (.ofText "") →
      Gives job.limits (frame.enter r).keys.length q (AllMean job (frame.enter r) d.nodes)
        (nodes job (frame.enter r) d.nodes q)) :
    Gives job.limits frame.keys.length p (Means job frame (.inclusion path span))
      (node job frame (.inclusion path span) p) := by
  obtain ⟨output, includes, cache⟩ := p
  obtain rfl : cache = none := hc
  have hroom (r : Resolved) (hi : includes < job.limits.includes)
      (hd : frame.keys.length < job.limits.depth) :
      Room job.limits (frame.enter r).keys.length ⟨output, includes + 1, none⟩ (.ofText "") :=
    ⟨hi, hd, hp.bytes_le⟩
  intro q
  constructor
  · intro h
    by_cases hd : frame.keys.length < job.limits.depth
    · rw [node_inclusion _ _ _ _ _ hd] at h
      rcases hf : fetch job frame span path ⟨output, includes, none⟩ with ⟨e | ⟨r, d⟩, q'⟩
      · rw [hf] at h
        exact absurd h (Outcome.fail_ne_ok _ _ _)
      · rw [hf] at h
        obtain ⟨hi, hr, hk, hparse, rfl⟩ := (fetch_eq_ok_iff span).1 hf
        obtain ⟨m, hm, hrm, rfl⟩ := (ih r d _ hd hf rfl (hroom r hi hd) q).1 h
        exact ⟨_, .inclusion hr hk hparse hm, (room_included_iff none).2 hrm,
          (Progress.add_included _ m).symm⟩
    · rw [node_tooDeep _ _ _ _ _ (by omega)] at h
      exact absurd h (Outcome.fail_ne_ok _ _ _)
  · rintro ⟨m, hm, hrm, rfl⟩
    cases hm with
    | @inclusion _ _ _ r d m hr hk hparse hm =>
      have hrm' := (room_included_iff none).1 hrm
      have hd : frame.keys.length < job.limits.depth := by
        have := hrm'.depth_le
        omega
      have hi : includes < job.limits.includes := by
        have := hrm'.includes_le
        simp only at this
        omega
      have hf : fetch job frame span path ⟨output, includes, none⟩ =
          (.ok (r, d), ⟨output, includes + 1, none⟩) :=
        (fetch_eq_ok_iff span).2 ⟨hi, hr, hk, hparse, rfl⟩
      rw [node_inclusion _ _ _ _ _ hd, hf]
      exact (ih r d _ hd hf rfl (hroom r hi hd) _).2 ⟨m, hm, hrm', Progress.add_included _ m⟩

/-- **Without a cache, nodes are walked to the end exactly if they mean something and there is
room for it**, which is then what they have added. -/
theorem walk_gives :
    (∀ frame list p, p.cache = none → Room job.limits frame.keys.length p (.ofText "") →
      Gives job.limits frame.keys.length p (AllMean job frame list) (nodes job frame list p)) ∧
    ∀ frame n p, p.cache = none → Room job.limits frame.keys.length p (.ofText "") →
      Gives job.limits frame.keys.length p (Means job frame n) (node job frame n p) := by
  refine @walk_induction job _ _ ?nil ?cons ?literal ?interpolation ?conditional ?inclusion
  case nil =>
    intro frame p _ hp
    rw [nodes_nil]
    refine (gives_nothing hp).congr fun m => ⟨?_, ?_⟩
    · rintro ⟨⟩
      rfl
    · rintro rfl
      exact .nil
  case cons =>
    intro frame n ns p ihn ihns hc hp
    rw [nodes_cons]
    refine ((ihn hc hp).andThen fun a hra => ihns (p.add a) hc hra.after).congr fun m => ⟨?_, ?_⟩
    · intro hm
      cases hm with
      | cons ha hb => exact ⟨_, _, ha, hb, rfl⟩
    · rintro ⟨a, b, ha, hb, rfl⟩
      exact .cons ha hb
  case literal =>
    intro frame text span p _ hp
    rw [node_literal]
    refine (gives_append span text hp).congr fun m => ⟨?_, ?_⟩
    · rintro ⟨⟩
      rfl
    · rintro rfl
      exact .literal
  case interpolation =>
    intro frame name span p _ hp
    rw [node_interpolation]
    refine (gives_append span _ hp).congr fun m => ⟨?_, ?_⟩
    · rintro ⟨⟩
      rfl
    · rintro rfl
      exact .interpolation
  case conditional =>
    exact fun frame branches otherwise span p ih hc hp =>
      gives_conditional branches otherwise span hp fun body hb => ih body hb hc hp
  case inclusion => exact fun frame path span p ih hc hp => gives_inclusion path span hc hp ih

/-- **A render without a cache gives a text exactly if this is what the template means, and there
are no more includes in it, no deeper, and no more bytes than the limits say.** -/
theorem document_result_eq_ok_iff {source : String} {d : Document} {text : String} :
    (document job none source d).result = .ok text ↔
      ∃ m : Meaning, Node.AllMean job.params job.mode job.resolver job.limits.nesting [] d.nodes m ∧
        m.text = text ∧ m.includes ≤ job.limits.includes ∧ m.depth ≤ job.limits.depth ∧
        text.utf8ByteSize ≤ job.limits.bytes := by
  have hstart : Room job.limits ([] : List String).length ⟨"", 0, none⟩ (.ofText "") := by
    constructor <;> simp [Meaning.ofText]
  have hwalk := walk_gives.1 ⟨source, []⟩ d.nodes ⟨"", 0, none⟩ rfl hstart
  have hroom : ∀ m : Meaning, Room job.limits ([] : List String).length ⟨"", 0, none⟩ m ↔
      m.includes ≤ job.limits.includes ∧ m.depth ≤ job.limits.depth ∧
      m.text.utf8ByteSize ≤ job.limits.bytes := by
    intro m
    simp [room_iff]
  rw [Outcome.result_eq_ok_iff, document]
  constructor
  · rintro ⟨q, h, rfl⟩
    obtain ⟨m, hm, hr, rfl⟩ := (hwalk q).1 h
    have htext : (Progress.add ⟨"", 0, none⟩ m).output = m.text := String.empty_append
    exact ⟨m, hm, htext.symm, htext ▸ (hroom m).1 hr⟩
  · rintro ⟨m, hm, rfl, h⟩
    exact ⟨_, (hwalk _).2 ⟨m, hm, (hroom m).2 h, rfl⟩, String.empty_append⟩

end Render

end Stencil
