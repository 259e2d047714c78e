import Stencil.Proofs.Document.Splicing
import Stencil.Proofs.Render.LookUps
import Stencil.Proofs.Render.Meaning

/-!
# Inlining an include

The content of an include may be written in the place where the include is named: the text of the
render stays the same (`template_inline`). What the content means there it also meant inside the
include, where one more template was open. So the inlined template needs no more includes than the
template did, and they nest no deeper, and it is rendered under the same limits.
-/

namespace Stencil

/-! ### Meanings -/

namespace Meaning

@[simp] theorem nothing_andThen (m : Meaning) : (ofText "").andThen m = m := by
  simp [andThen, ofText]

@[simp] theorem andThen_nothing (m : Meaning) : m.andThen (ofText "") = m := by
  simp [andThen, ofText]

theorem andThen_assoc (a b c : Meaning) : (a.andThen b).andThen c = a.andThen (b.andThen c) := by
  simp only [andThen, String.append_assoc, Nat.add_assoc, Nat.max_assoc]

/-- The same text with no more includes, which nest no deeper. -/
structure AtMost (m m' : Meaning) : Prop where
  /-- The texts are the same. -/
  text : m.text = m'.text
  /-- There are no more includes. -/
  includes : m.includes ≤ m'.includes
  /-- They nest no deeper. -/
  depth : m.depth ≤ m'.depth

theorem AtMost.refl (m : Meaning) : m.AtMost m := ⟨rfl, Nat.le_refl _, Nat.le_refl _⟩

theorem AtMost.trans {a b c : Meaning} (h : a.AtMost b) (h' : b.AtMost c) : a.AtMost c :=
  ⟨h.text.trans h'.text, Nat.le_trans h.includes h'.includes, Nat.le_trans h.depth h'.depth⟩

theorem AtMost.andThen {a a' b b' : Meaning} (ha : a.AtMost a') (hb : b.AtMost b') :
    (a.andThen b).AtMost (a'.andThen b') where
  text := congrArg₂ (· ++ ·) ha.text hb.text
  includes := Nat.add_le_add ha.includes hb.includes
  depth := max_le_max ha.depth hb.depth

theorem atMost_included (m : Meaning) : m.AtMost m.included :=
  ⟨rfl, Nat.le_succ _, Nat.le_succ _⟩

end Meaning

section

variable {params : Params} {mode : Mode} {resolver : Resolver} {nesting : Nat}

mutual

/-- What a node means inside of includes it means inside of fewer. -/
theorem Node.Means.mono : ∀ {keys keys' : List String} {n : Node} {m : Meaning},
    Node.Means params mode resolver nesting keys n m → keys' ⊆ keys →
      Node.Means params mode resolver nesting keys' n m
  | _, _, _, _, .literal, _ => .literal
  | _, _, _, _, .interpolation, _ => .interpolation
  | _, _, _, _, .skipped hs, _ => .skipped hs
  | _, _, _, _, .taken hs hb, hk => .taken hs (hb.mono hk)
  | _, _, _, _, .inclusion hr hopen hp hd, hk =>
    .inclusion hr (fun h => hopen (hk h)) hp (hd.mono (List.cons_subset_cons _ hk))

/-- What nodes mean inside of includes they mean inside of fewer. -/
theorem Node.AllMean.mono : ∀ {keys keys' : List String} {ns : List Node} {m : Meaning},
    Node.AllMean params mode resolver nesting keys ns m → keys' ⊆ keys →
      Node.AllMean params mode resolver nesting keys' ns m
  | _, _, _, _, .nil, _ => .nil
  | _, _, _, _, .cons hn hns, hk => .cons (hn.mono hk) (hns.mono hk)

end

end

/-- The body that is taken is related to that taken from related branches. -/
theorem Selects.related {R : List Node → List Node → Prop} {truthy : String → Bool}
    {branches branches' : List Branch} {otherwise otherwise' body : Option (List Node)}
    (h : Selects truthy otherwise branches body)
    (hb : List.Forall₂ (Branch.Related R) branches branches')
    (ho : Option.Rel R otherwise otherwise') :
    ∃ body', Selects truthy otherwise' branches' body' ∧ Option.Rel R body body' := by
  induction h generalizing branches' with
  | nil =>
    cases hb
    exact ⟨otherwise', .nil, ho⟩
  | here hc =>
    cases hb with
    | cons hbranch _ => exact ⟨_, .here (hbranch.condition ▸ hc), .some hbranch.body⟩
  | there hc _ ih =>
    cases hb with
    | cons hbranch hrest =>
      obtain ⟨body', hs, hbody⟩ := ih hrest
      exact ⟨body', .there (hbranch.condition ▸ hc) hs, hbody⟩

namespace Render

variable {job : Job} {frame : Frame}

/-! ### Nodes that contribute the same -/

/-- Where the first nodes contribute something, the second contribute the same text, with no more
includes. -/
def Covers (job : Job) (frame : Frame) (ns ns' : List Node) : Prop :=
  ∀ m, AllMean job frame ns m → ∃ m', AllMean job frame ns' m' ∧ m'.AtMost m

theorem allMean_append_iff {xs ys : List Node} {m : Meaning} :
    AllMean job frame (xs ++ ys) m ↔
      ∃ a b, AllMean job frame xs a ∧ AllMean job frame ys b ∧ m = a.andThen b := by
  induction xs generalizing m with
  | nil =>
    constructor
    · intro h
      exact ⟨_, m, .nil, h, m.nothing_andThen.symm⟩
    · rintro ⟨a, b, ha, hb, rfl⟩
      cases ha
      rwa [Meaning.nothing_andThen]
  | cons x xs ih =>
    constructor
    · intro h
      cases h with
      | cons hn hns =>
        obtain ⟨a, b, ha, hb, rfl⟩ := ih.1 hns
        exact ⟨_, b, .cons hn ha, hb, (Meaning.andThen_assoc ..).symm⟩
    · rintro ⟨_, b, ha, hb, rfl⟩
      cases ha with
      | cons hn hns =>
        rw [Meaning.andThen_assoc]
        exact .cons hn (ih.2 ⟨_, b, hns, hb, rfl⟩)

theorem allMean_singleton_iff {n : Node} {m : Meaning} :
    AllMean job frame [n] m ↔ Means job frame n m := by
  constructor
  · intro h
    cases h with
    | cons hn hns =>
      cases hns
      rwa [Meaning.andThen_nothing]
  · intro h
    have hcons := Node.AllMean.cons h .nil
    rwa [Meaning.andThen_nothing] at hcons

theorem covers_singleton {n : Node} {ns : List Node}
    (h : ∀ m, Means job frame n m → ∃ m', AllMean job frame ns m' ∧ m'.AtMost m) :
    Covers job frame [n] ns :=
  fun m hm => h m (allMean_singleton_iff.1 hm)

theorem covers_move {x : Spanned Item} {n : Node} (g : Nat → Nat)
    (hx : Document.nodeOf? x = some n) : Covers job frame [n] [n.move g] := by
  refine covers_singleton fun m hm => ⟨m, allMean_singleton_iff.2 ?_, .refl m⟩
  cases hm with
  | literal => exact .literal
  | interpolation => exact .interpolation
  | inclusion hr hk hp hd => exact .inclusion hr hk hp hd
  | skipped | taken =>
    unfold Document.nodeOf? at hx
    split at hx <;> cases hx

theorem covers_literal {a b : String} {s t u : Span} :
    Covers job frame [.literal a s, .literal b t] [.literal (a ++ b) u] := by
  intro m hm
  cases hm with
  | cons ha hb =>
    cases ha
    obtain ⟨⟩ := allMean_singleton_iff.1 hb
    exact ⟨_, allMean_singleton_iff.2 .literal, .refl _⟩

theorem covers_conditional {bs bs' : List Branch} {o o' : Option (List Node)} {s s' : Span}
    (hb : List.Forall₂ (Branch.Related (Covers job frame)) bs bs')
    (ho : Option.Rel (Covers job frame) o o') :
    Covers job frame [.conditional bs o s] [.conditional bs' o' s'] := by
  refine covers_singleton fun m hm => ?_
  cases hm with
  | skipped hs =>
    obtain ⟨_, hs', ⟨⟩⟩ := hs.related hb ho
    exact ⟨_, allMean_singleton_iff.2 (.skipped hs'), .refl _⟩
  | taken hs hbody =>
    obtain ⟨_, hs', hbody'⟩ := hs.related hb ho
    cases hbody' with
    | some hcov =>
      obtain ⟨m', hm', hle⟩ := hcov m hbody
      exact ⟨m', allMean_singleton_iff.2 (.taken hs' hm'), hle⟩

/-- **What nodes contribute depends neither on their offsets nor on where literal texts are cut**,
and bodies may be replaced with those that contribute the same. -/
theorem compatible_covers : Node.Compatible (Covers job frame) where
  refl ns m hm := ⟨m, hm, .refl m⟩
  trans hxy hyz m hm := by
    obtain ⟨m', hm', hle⟩ := hxy m hm
    obtain ⟨m'', hm'', hle'⟩ := hyz m' hm'
    exact ⟨m'', hm'', hle'.trans hle⟩
  append hx hy m hm := by
    obtain ⟨a, b, ha, hb, rfl⟩ := allMean_append_iff.1 hm
    obtain ⟨a', ha', hale⟩ := hx a ha
    obtain ⟨b', hb', hble⟩ := hy b hb
    exact ⟨_, allMean_append_iff.2 ⟨a', b', ha', hb', rfl⟩, hale.andThen hble⟩
  move g hx := covers_move g hx
  literal := covers_literal
  conditional := covers_conditional

/-- **The content of an include contributes what the include does**, outside of it too. -/
theorem covers_inclusion {path : String} {span : Span} {r : Resolved} {c : Document}
    (hr : job.resolver path = .ok r) (hc : Document.parse job.limits.nesting r.content = .ok c) :
    Covers job frame [.inclusion path span] c.nodes := by
  refine covers_singleton fun m hm => ?_
  cases hm with
  | @inclusion _ _ _ r' d m hr' hk hp hd =>
    obtain rfl : r = r' := Except.ok.inj (hr.symm.trans hr')
    obtain rfl : c = d := Except.ok.inj (hc.symm.trans hp)
    exact ⟨m, hd.mono (List.subset_cons_self r.key frame.keys), m.atMost_included⟩

/-! ### Templates -/

theorem Room.of_atMost {limits : Limits} {opened : Nat} {p : Progress} {m m' : Meaning}
    (h : Room limits opened p m) (hm : m'.AtMost m) : Room limits opened p m' where
  includes_le := Nat.le_trans (Nat.add_le_add_left hm.includes _) h.includes_le
  depth_le := Nat.le_trans (Nat.add_le_add_left hm.depth _) h.depth_le
  bytes_le := hm.text ▸ h.bytes_le

/-- Without a cache the walk of a whole template gives what its nodes mean. -/
theorem document_gives (source : String) (d : Document) :
    Gives job.limits 0 ⟨"", 0, none⟩ (AllMean job ⟨source, []⟩ d.nodes)
      (document job none source d) := by
  have hstart : Room job.limits 0 ⟨"", 0, none⟩ (.ofText "") := by
    constructor <;> simp [Meaning.ofText]
  exact walk_gives.1 ⟨source, []⟩ d.nodes ⟨"", 0, none⟩ rfl hstart

/-- Without a cache a template gives a text if it parses and this is what its nodes mean, with room
for it. -/
theorem template_none_eq_ok_iff {source text : String} :
    (template job none source).1 = .ok text ↔
      ∃ d m, Document.parse job.limits.nesting source = .ok d ∧
        AllMean job ⟨source, []⟩ d.nodes m ∧ Room job.limits 0 ⟨"", 0, none⟩ m ∧ m.text = text := by
  rw [template_fst_eq_ok_iff]
  simp only [Cache.lookUp_none]
  constructor
  · rintro ⟨d, hd, q, hq, rfl⟩
    obtain ⟨m, hm, hr, rfl⟩ := (document_gives source d q).1 hq
    exact ⟨d, m, hd, hm, hr, String.empty_append.symm⟩
  · rintro ⟨d, m, hd, hm, hr, rfl⟩
    exact ⟨d, hd, _, (document_gives source d _).2 ⟨m, hm, hr, rfl⟩, String.empty_append⟩

/-- **An include may be replaced with its content.** Let an include occur anywhere in a template,
and let its content parse by itself. If the content is written into the template in the place of the
include, without making a marker where it ends, then the new template parses, unless blocks nest too
deep in it, and if it parses it gives the text that the template gives, wherever this gives one. -/
theorem template_inline {source path : String} {span : Span} {d c : Document} {r : Resolved}
    (hd : Document.parse job.limits.nesting source = .ok d)
    (ho : (Node.inclusion path span).OccursIn d.nodes) (hr : job.resolver path = .ok r)
    (hc : Document.parse job.limits.nesting r.content = .ok c)
    (hs : ∀ after, Text.after? source.toList span.stop = some after → Seam r.content.toList after) :
    ∃ inlined : String,
      Text.splice? source.toList span r.content.toList = some inlined.toList ∧
      ((∃ d', Document.parse job.limits.nesting inlined = .ok d') ∨
        ∃ s, Document.parse job.limits.nesting inlined = .error ⟨.tooDeep job.limits.nesting, s⟩) ∧
      ∀ cache cache', AnswersRight job cache source → AnswersRight job cache' inlined →
        ∀ d' text, Document.parse job.limits.nesting inlined = .ok d' →
          (template job cache source).1 = .ok text →
            (template job cache' inlined).1 = .ok text := by
  obtain ⟨inlined, hsplice, hparse⟩ := Document.parse_splice (@compatible_covers job ⟨source, []⟩)
    hd ho nofun rfl hc (covers_inclusion hr hc) hs
  refine ⟨inlined, hsplice, hparse.imp_left fun ⟨d', hd', _⟩ => ⟨d', hd'⟩, ?_⟩
  intro cache cache' hcache hcache' d' text hd' ht
  rw [hcache.template_fst, template_none_eq_ok_iff] at ht
  rw [hcache'.template_fst, template_none_eq_ok_iff]
  obtain ⟨e, m, he, hm, hroom, htext⟩ := ht
  obtain rfl : d = e := Except.ok.inj (hd.symm.trans he)
  obtain ⟨d'', hd'', hcov⟩ | ⟨s, hs⟩ := hparse
  · obtain ⟨m', hm', hle⟩ := hcov m hm
    exact ⟨d'', m', hd'', hm', hroom.of_atMost hle, hle.text.trans htext⟩
  · rw [hs] at hd'
    cases hd'

/-- An include inside of a block, whose content ends in a bracket. -/
theorem template_inline_of_bracket :
    let resolver : Resolver := fun path =>
      if path = "k" then .ok ⟨"k", "[[ $y ]]["⟩ else .error ⟨.notFound, path⟩
    let job : Job := ⟨⟨[("x", .string "1")]⟩, .xml, resolver, ⟨1, 1, 9, 1⟩⟩
    let source := "[% if $x %]a[% include 'k' %]b[% endif %]"
    (template job none source).1 = .ok "a[b" ∧
      (template job none "[% if $x %]a[[ $y ]][b[% endif %]").1 = .ok "a[b" := by
  intro resolver job source
  have hparse : Document.parse 1 source =
      .ok ⟨[.conditional [.mk (.param "x") ⟨6, 8⟩ [.literal "a" ⟨11, 12⟩, .inclusion "k" ⟨12, 29⟩,
        .literal "b" ⟨29, 30⟩]] none ⟨0, 41⟩]⟩ := by cbv
  have hcontent : Document.parse 1 "[[ $y ]][" =
      .ok ⟨[.interpolation "y" ⟨0, 8⟩, .literal "[" ⟨8, 9⟩]⟩ := by cbv
  have hinlined : ∃ d', Document.parse 1 "[% if $x %]a[[ $y ]][b[% endif %]" = .ok d' := ⟨_, by cbv⟩
  have hsource : (template job none source).1 = .ok "a[b" := by
    refine template_none_eq_ok_iff.2 ⟨_, _, hparse, .cons (.taken (.here rfl) (.cons .literal
      (.cons (.inclusion rfl List.not_mem_nil hcontent (.cons .interpolation (.cons .literal .nil)))
        (.cons .literal .nil)))) .nil, ?_, rfl⟩
    constructor <;> decide
  have hs : ∀ after, Text.after? source.toList 29 = some after → Seam "[[ $y ]][".toList after := by
    intro after hafter
    have hcut : Text.after? source.toList 29 = some "b[% endif %]".toList := by decide
    obtain rfl := Option.some.inj (hcut.symm.trans hafter)
    rw [Seam]
    decide
  have hbody : Node.inclusion "k" ⟨12, 29⟩ ∈ ([.literal "a" ⟨11, 12⟩, .inclusion "k" ⟨12, 29⟩,
      .literal "b" ⟨29, 30⟩] : List Node) := List.mem_cons_of_mem _ List.mem_cons_self
  obtain ⟨inlined, hsplice, -, hsame⟩ := @template_inline job source "k" ⟨12, 29⟩ _ _
    ⟨"k", "[[ $y ]]["⟩ hparse (.branch List.mem_cons_self List.mem_cons_self (.here hbody)) rfl
    hcontent hs
  have hnew : Text.splice? source.toList ⟨12, 29⟩ "[[ $y ]][".toList =
      some "[% if $x %]a[[ $y ]][b[% endif %]".toList := by decide
  obtain rfl := String.toList_inj.1 (Option.some.inj (hnew.symm.trans hsplice))
  obtain ⟨d', hd'⟩ := hinlined
  exact ⟨hsource, hsame none none (answersRight_none _ _) (answersRight_none _ _) d' _ hd' hsource⟩

end Render

end Stencil
