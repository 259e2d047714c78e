import Mathlib
import Stencil.Proofs.Document.Splicing
import Stencil.Proofs.Token.Coverage

/-!
# The nodes of a document tile the template

The items of a template stand one right behind the other and leave nothing out, and each stands on
the text that it was made from (`Item.tile_of_ofTokens`). Putting blocks together keeps that: what a
block reads is its nodes, the directive that ends it and what is left, one right behind the other
(`Document.Stretch.Laid`), and a conditional takes the place of its directives and of the bodies
between them (`Divided`). So the nodes of a document tile the template, and every body of a
conditional tiles the text between the directives around it (`Document.nodes_tile`).
-/

namespace Stencil

/-! ### Tilings -/

/-- Spans that are not empty, each right behind the one before, from offset `pos` to `stop`. -/
inductive Tile : (pos : Nat) → List Span → (stop : Nat) → Prop where
  /-- No spans. -/
  | nil {pos : Nat} : Tile pos [] pos
  /-- One more span in front of the others. -/
  | cons {s : Span} {ss : List Span} {stop : Nat} (hs : s.start < s.stop)
      (h : Tile s.stop ss stop) : Tile s.start (s :: ss) stop

namespace Tile

variable {pos stop : Nat} {ss us : List Span}

theorem append_iff : Tile pos (ss ++ us) stop ↔ ∃ mid, Tile pos ss mid ∧ Tile mid us stop := by
  constructor
  · intro h
    induction ss generalizing pos with
    | nil => exact ⟨pos, .nil, h⟩
    | cons s ss ih =>
      cases h with
      | cons hs h =>
        obtain ⟨mid, hss, hus⟩ := ih h
        exact ⟨mid, .cons hs hss, hus⟩
  · rintro ⟨mid, hss, hus⟩
    induction hss with
    | nil => exact hus
    | cons hs _ ih => exact .cons hs (ih hus)

theorem le (h : Tile pos ss stop) : pos ≤ stop := by
  induction h with
  | nil => exact Nat.le_refl _
  | cons hs _ ih => exact Nat.le_trans (Nat.le_of_lt hs) ih

theorem bounds (h : Tile pos ss stop) : ∀ s ∈ ss, pos ≤ s.start ∧ s.stop ≤ stop := by
  induction h with
  | nil => nofun
  | cons hs h ih =>
    refine List.forall_mem_cons.2 ⟨⟨Nat.le_refl _, h.le⟩, fun u hu => ?_⟩
    exact ⟨Nat.le_trans (Nat.le_of_lt hs) (ih u hu).1, (ih u hu).2⟩

end Tile

/-! ### Ranges between markers -/

/-- What is left of a text at one place begins with what stands before a place further on. -/
theorem Text.after?_le {source cs ds : List Char} {m n : Nat} (hc : after? source m = some cs)
    (hd : after? source n = some ds) (hle : m ≤ n) :
    ∃ mid, cs = mid ++ ds ∧ m + size mid = n := by
  obtain ⟨before, rfl, rfl⟩ := after?_eq_some_iff.1 hc
  obtain ⟨before', heq, rfl⟩ := after?_eq_some_iff.1 hd
  obtain ⟨mid, rfl, rfl⟩ | ⟨mid, rfl, rfl⟩ := List.append_eq_append_iff.1 heq
  · exact ⟨mid, rfl, (size_append ..).symm⟩
  · rw [size_append] at hle
    obtain rfl : mid = [] := by
      by_contra hne
      have := size_pos hne
      omega
    exact ⟨[], rfl, by rw [List.append_nil, size_nil, Nat.add_zero]⟩

/-- The range begins with the opening marker of a construct and ends with its close marker. -/
def Span.Marked (source : List Char) (k : Construct) (s : Span) : Prop :=
  ∃ inner rest, s.Shows source (k.openText ++ inner ++ k.closeText) rest

namespace Span.Marked

variable {source : List Char} {k : Construct} {s t : Span}

theorem start_lt_stop (h : s.Marked source k) : s.start < s.stop := by
  obtain ⟨inner, rest, h⟩ := h
  have hstop := h.stop_eq
  rw [Text.size_append, Text.size_append, Token.size_openText, Construct.markSize] at hstop
  omega

/-- From one construct to another of its kind. -/
theorem join (hs : s.Marked source k) (ht : t.Marked source k) (hst : s.stop ≤ t.start) :
    Span.Marked source k ⟨s.start, t.stop⟩ := by
  obtain ⟨a, rest, ha⟩ := hs
  obtain ⟨b, rest', hb⟩ := ht
  rw [ha.stop_eq] at hst
  obtain ⟨mid, hmid, hsize⟩ := Text.after?_le (Text.after?_add ha.at_start) hb.at_start hst
  refine ⟨a ++ k.closeText ++ mid ++ k.openText ++ b, rest', ?_, ?_⟩
  · rw [ha.at_start, hmid]
    simp only [List.append_assoc]
  · rw [hb.stop_eq]
    simp only [Text.size_append] at hsize hst ⊢
    omega

end Span.Marked

/-! ### Items -/

/-- The item stands on a range: literal text, which is not empty, on itself, the rest on a
construct. -/
def Item.StandsAt (source : List Char) (s : Span) : Item → Prop
  | .text value => value ≠ "" ∧ ∃ rest, s.Shows source value.toList rest
  | .interpolation _ => s.Marked source .interpolation
  | .directive _ => s.Marked source .directive

namespace Token

theorem Scans.closeText_suffix {k : Construct} {start pos : Nat} {cs : List Char}
    {inner : List (Spanned Token)} {closing : Span}
    (h : Scans (.inside k start) pos cs (inner ++ [⟨k.closeToken, closing⟩]))
    (hi : ∀ t ∈ inner, Inside k t.node) : k.closeText <:+ cs := by
  generalize hr : Region.inside k start = r at h
  generalize hts : inner ++ [⟨k.closeToken, closing⟩] = ts at h
  induction h generalizing inner with
  | rest | opening => cases hr
  | blank _ _ ih => exact (ih hi hr hts).trans (List.suffix_cons _ _)
  | @inner _ _ _ t text _ _ _ _ hk _ ih =>
    cases hr
    cases inner with
    | nil =>
      cases hts
      exact absurd rfl hk
    | cons u inner =>
      cases hts
      exact (ih (fun t ht => hi t (List.mem_cons_of_mem _ ht)) rfl rfl).trans
        (List.suffix_append _ _)
  | closing h =>
    cases hr
    cases inner with
    | nil =>
      cases hts
      rw [h.eq_nil rfl, List.append_nil]
    | cons u inner =>
      cases hts
      exact absurd rfl (hi _ List.mem_cons_self).1

end Token

namespace Item

variable {source : List Char} {limit : Nat}

theorem standsAt_of_construct? {full span : Span} {inner : List (Spanned Token)} {k : Construct}
    {item : Item} (h : construct? limit full inner k = .ok item) (hm : span.Marked source k) :
    item.StandsAt source span := by
  cases k with
  | directive =>
    obtain ⟨d, -, rfl⟩ := map_eq_ok_iff.1 h
    exact hm
  | interpolation =>
    simp only [construct?] at h
    split at h
    · cases h
      exact hm
    · cases h

/-- **The items of a text tile it**, and each stands on what it was made from. -/
theorem tile_of_ofTokens {pos : Nat} {cs : List Char} {ts : List (Spanned Token)}
    {items : List (Spanned Item)} (hb : Token.Bracketed ts) (h : Token.Scans .outside pos cs ts)
    (hi : ofTokens limit ts = .ok items) (hc : Text.after? source pos = some cs) :
    Tile pos (items.map Spanned.span) (pos + Text.size cs) ∧
      ∀ x ∈ items, x.node.StandsAt source x.span := by
  induction hb generalizing pos cs items with
  | nil =>
    rw [ofTokens_nil] at hi
    cases hi
    rw [h.eq_nil rfl]
    exact ⟨.nil, nofun⟩
  | @text s span ts hb ih =>
    rw [ofTokens_text] at hi
    obtain ⟨more, hmore, rfl⟩ := map_eq_ok_iff.1 hi
    have hcons : Token.Scans .outside pos cs ([⟨.text s, span⟩] ++ ts) := h
    obtain ⟨before, after, hcut⟩ := hcons.cut (Token.Bracketed.text .nil)
    obtain ⟨-, hlit⟩ := hcut.first.eq_literal
    rw [hcut.text_eq] at hc ⊢
    obtain ⟨htile, hstands⟩ := ih hcut.second hmore (Text.after?_add hc)
    rw [Text.size_append, ← Nat.add_assoc]
    cases before with
    | nil => cases hlit
    | cons c before =>
      cases hlit
      have hpos := Text.size_pos (List.cons_ne_nil c before)
      refine ⟨@Tile.cons ⟨pos, _⟩ _ _ (Nat.lt_add_of_pos_right hpos) htile,
        List.forall_mem_cons.2 ⟨⟨?_, after, ?_, ?_⟩, hstands⟩⟩
      · simp
      · rwa [String.toList_ofList]
      · rw [String.toList_ofList]
  | @construct k opening closing inner ts hin hw hb ih =>
    rw [ofTokens_construct hin] at hi
    obtain ⟨item, hitem, hi⟩ := bind_eq_ok_iff.1 hi
    obtain ⟨more, hmore, rfl⟩ := map_eq_ok_iff.1 hi
    rw [List.append_cons inner, ← List.cons_append] at h
    obtain ⟨before, after, hcut⟩ := h.cut (.construct hin hw .nil)
    rw [hcut.text_eq] at hc ⊢
    obtain ⟨htile, hstands⟩ := ih hcut.second hmore (Text.after?_add hc)
    obtain ⟨rest, rfl, rfl, hrest⟩ := hcut.first.of_openToken
    obtain ⟨text, rfl⟩ := hrest.closeText_suffix hin
    rw [← List.append_assoc] at hcut hc htile ⊢
    have hstop := hcut.first.stop_eq ⟨k.closeToken, closing⟩ (by
      rw [← List.cons_append, List.getLast?_concat]
      rfl)
    have hm : Span.Marked source k ⟨pos, closing.stop⟩ := ⟨text, after, hc, hstop⟩
    rw [Text.size_append _ after, ← Nat.add_assoc]
    refine ⟨@Tile.cons ⟨pos, closing.stop⟩ _ _ hm.start_lt_stop ?_,
      List.forall_mem_cons.2 ⟨standsAt_of_construct? hitem hm, hstands⟩⟩
    exact hstop ▸ htile

end Item

/-! ### Conditionals -/

/-- A directive of a template, from marker to marker. -/
structure Directive.StandsAt (source : List Char) (items : List (Spanned Item)) (s : Span)
    (d : Directive) : Prop where
  /-- It is one of the items. -/
  mem : ⟨.directive d, s⟩ ∈ items
  /-- The range has its markers. -/
  marked : s.Marked source .directive

/-- The condition of a branch, where it stands. -/
def Branch.head (b : Branch) : Spanned Condition := ⟨b.condition, b.conditionSpan⟩

/-- Each body of a conditional tiles the text from the directive before it to the one behind it: the
directive at `opening` is in front of the first branch, and the `endif` ends at `stop`. -/
inductive Divided (source : List Char) (items : List (Spanned Item)) :
    (opening : Span) → List Branch → Option (List Node) → (stop : Nat) → Prop where
  /-- The last branch goes on to the `endif`. -/
  | endif {opening closing : Span} {b : Branch}
      (hb : Tile opening.stop (b.body.map Node.span) closing.start)
      (hc : Directive.endifD.StandsAt source items closing) :
      Divided source items opening [b] none closing.stop
  /-- An `elif` is in front of the next branch. -/
  | elif {opening next : Span} {b b' : Branch} {bs : List Branch}
      {otherwise : Option (List Node)} {stop : Nat}
      (hb : Tile opening.stop (b.body.map Node.span) next.start)
      (hn : (Directive.elifD b'.head).StandsAt source items next)
      (h : Divided source items next (b' :: bs) otherwise stop) :
      Divided source items opening (b :: b' :: bs) otherwise stop
  /-- An `else` is in front of the last part. -/
  | otherwise {opening next closing : Span} {b : Branch} {body : List Node}
      (hb : Tile opening.stop (b.body.map Node.span) next.start)
      (hn : Directive.elseD.StandsAt source items next)
      (ho : Tile next.stop (body.map Node.span) closing.start)
      (hc : Directive.endifD.StandsAt source items closing) :
      Divided source items opening [b] (some body) closing.stop

/-- The bodies of a conditional. -/
def Node.bodies (branches : List Branch) (otherwise : Option (List Node)) : List (List Node) :=
  branches.map Branch.body ++ otherwise.toList

/-- A range lies in another one, and does not reach to its ends. -/
def Span.Inside (s t : Span) : Prop := t.start < s.start ∧ s.stop < t.stop

/-- The node stands on its span: literal text on itself, an interpolation or an include on its
construct, and a conditional on everything from its `if` to its `endif`. -/
inductive Node.Stands (source : List Char) (items : List (Spanned Item)) : Node → Prop where
  /-- Literal text. -/
  | literal {text : String} {s : Span} (hne : text ≠ "")
      (h : ∃ rest, s.Shows source text.toList rest) : Stands source items (.literal text s)
  /-- An interpolation. -/
  | interpolation {name : String} {s : Span} (h : s.Marked source .interpolation) :
      Stands source items (.interpolation name s)
  /-- An include. -/
  | inclusion {path : String} {s : Span} (h : s.Marked source .directive) :
      Stands source items (.inclusion path s)
  /-- A conditional. -/
  | conditional {b : Branch} {bs : List Branch} {otherwise : Option (List Node)}
      {s opening : Span} (hs : s.start = opening.start)
      (ho : (Directive.ifD b.head).StandsAt source items opening)
      (hd : Divided source items opening (b :: bs) otherwise s.stop)
      (hm : s.Marked source .directive)
      (hb : ∀ body ∈ bodies (b :: bs) otherwise, ∀ n ∈ body, n.span.Inside s) :
      Stands source items (.conditional (b :: bs) otherwise s)

section

variable {source : List Char} {items : List (Spanned Item)}

/-- No node is empty. -/
theorem Node.Stands.start_lt_stop {n : Node} (h : n.Stands source items) :
    n.span.start < n.span.stop := by
  cases h with
  | @literal text s hne h =>
    obtain ⟨rest, h⟩ := h
    have hpos := Text.size_pos (mt String.toList_eq_nil_iff.1 hne)
    exact h.stop_eq ▸ Nat.lt_add_of_pos_right hpos
  | interpolation h => exact h.start_lt_stop
  | inclusion h => exact h.start_lt_stop
  | conditional _ _ _ hm _ => exact hm.start_lt_stop

/-- The bodies end before the `endif`. -/
theorem Divided.exists_closing {opening : Span} {branches : List Branch}
    {otherwise : Option (List Node)} {stop : Nat}
    (h : Divided source items opening branches otherwise stop) :
    ∃ closing : Span, closing.stop = stop ∧ closing.Marked source .directive ∧
      opening.stop ≤ closing.start ∧ ∀ body ∈ Node.bodies branches otherwise, ∀ n ∈ body,
        opening.stop ≤ n.span.start ∧ n.span.stop ≤ closing.start := by
  have hbounds {pos stop : Nat} {ns : List Node} (h : Tile pos (ns.map Node.span) stop) :
      ∀ n ∈ ns, pos ≤ n.span.start ∧ n.span.stop ≤ stop := fun n hn =>
    h.bounds n.span (List.mem_map_of_mem hn)
  induction h with
  | endif hb hc =>
    exact ⟨_, rfl, hc.marked, hb.le, List.forall_mem_singleton.2 (hbounds hb)⟩
  | elif hb hn _ ih =>
    obtain ⟨closing, hstop, hm, hle, hbodies⟩ := ih
    have hnext := Nat.le_of_lt hn.marked.start_lt_stop
    have hopen := Nat.le_trans hb.le hnext
    refine ⟨closing, hstop, hm, Nat.le_trans hopen hle, List.forall_mem_cons.2 ⟨?_, ?_⟩⟩
    · exact fun n h => ⟨(hbounds hb n h).1,
        Nat.le_trans (hbounds hb n h).2 (Nat.le_trans hnext hle)⟩
    · exact fun body h n hn => ⟨Nat.le_trans hopen (hbodies body h n hn).1, (hbodies body h n hn).2⟩
  | otherwise hb hn ho hc =>
    have hnext := Nat.le_of_lt hn.marked.start_lt_stop
    have hopen := Nat.le_trans hb.le hnext
    refine ⟨_, rfl, hc.marked, Nat.le_trans hopen ho.le, List.forall_mem_cons.2 ⟨?_, ?_⟩⟩
    · exact fun n h => ⟨(hbounds hb n h).1,
        Nat.le_trans (hbounds hb n h).2 (Nat.le_trans hnext ho.le)⟩
    · exact List.forall_mem_singleton.2 fun n h =>
        ⟨Nat.le_trans hopen (hbounds ho n h).1, (hbounds ho n h).2⟩

/-- A conditional stands from its `if` to its `endif`. -/
theorem Divided.stands {opening : Span} {b : Branch} {bs : List Branch}
    {otherwise : Option (List Node)} {stop : Nat}
    (h : Divided source items opening (b :: bs) otherwise stop)
    (ho : (Directive.ifD b.head).StandsAt source items opening) :
    Node.Stands source items (.conditional (b :: bs) otherwise ⟨opening.start, stop⟩) := by
  obtain ⟨closing, rfl, hm, hle, hbodies⟩ := h.exists_closing
  refine @Node.Stands.conditional _ _ _ _ _ ⟨opening.start, _⟩ opening rfl ho h
    (ho.marked.join hm hle) fun body hbody n hn => ?_
  have hlo := ho.marked.start_lt_stop
  have hhi := hm.start_lt_stop
  have := hbodies body hbody n hn
  exact ⟨Nat.lt_of_lt_of_le hlo this.1, Nat.lt_of_le_of_lt this.2 hhi⟩

end

namespace Document

/-! ### Blocks -/

section

variable (source : List Char) (all : List (Spanned Item))

/-- A block tiles the text of its items: with its nodes, what ends it, and what is left. -/
structure Stretch.Laid (pos stop : Nat) (b : Stretch) : Prop where
  /-- They stand one right behind the other. -/
  tile : Tile pos (b.nodes.map Node.span ++
    (b.terminator.toList.map Spanned.span ++ b.rest.map Spanned.span)) stop
  /-- The nodes in it stand on their spans. -/
  stands : ∀ n : Node, n.OccursIn b.nodes → n.Stands source all

/-- The clauses of a conditional tile the text of their items, with what is left. The directive in
front of the first one is at `opening` and has the condition `c`. -/
structure Clauses.Laid (opening : Span) (c : Spanned Condition) (stop : Nat) (t : Clauses) :
    Prop where
  /-- The bodies tile what is between the directives. -/
  divided : ∃ b bs, t.branches = b :: bs ∧ b.head = c ∧
    Divided source all opening (b :: bs) t.otherwise t.stop
  /-- What is left is right behind the `endif`. -/
  rest : Tile t.stop (t.rest.map Spanned.span) stop
  /-- The nodes in the bodies stand on their spans. -/
  stands : ∀ body ∈ Node.bodies t.branches t.otherwise, ∀ n : Node, n.OccursIn body →
    n.Stands source all

end

variable {source : List Char} {all : List (Spanned Item)}

theorem stands_of_nodeOf? {x : Spanned Item} {n : Node} (hx : x.node.StandsAt source x.span)
    (h : nodeOf? x = some n) : n.Stands source all := by
  unfold nodeOf? at h
  split at h
  · cases h
    exact .literal hx.1 hx.2
  · cases h
    exact .interpolation hx
  · cases h
    exact .inclusion hx
  · cases h

theorem Stretch.Laid.cons {b : Stretch} {n : Node} {stop : Nat}
    (h : b.Laid source all n.span.stop stop) (hspan : n.span.start < n.span.stop)
    (hn : ∀ m : Node, m.OccursIn [n] → m.Stands source all) :
    (b.cons n).Laid source all n.span.start stop where
  tile := .cons hspan h.tile
  stands m hm := by
    obtain hm | hm := @Node.OccursIn.of_append m [n] _ hm
    · exact hn m hm
    · exact h.stands m hm

/-- The nodes of a block tile the text up to what ends it, and what is left the text behind that. -/
theorem Stretch.Laid.tile_terminator {b : Stretch} {t : Spanned Terminator} {pos stop : Nat}
    (h : b.Laid source all pos stop) (ht : b.terminator = some t) :
    Tile pos (b.nodes.map Node.span) t.span.start ∧
      Tile t.span.stop (b.rest.map Spanned.span) stop := by
  obtain ⟨mid, hnodes, hrest⟩ := Tile.append_iff.1 h.tile
  rw [ht] at hrest
  cases hrest with
  | cons _ hrest => exact ⟨hnodes, hrest⟩

/-- What ends a block is one of the items. -/
theorem item_mem_of_terminator {limit depth : Nat} {items : List (Spanned Item)} {b : Stretch}
    {t : Spanned Terminator} (h : readBlock limit depth items = .ok b)
    (ht : b.terminator = some t) : Terminator.item t ∈ items := by
  obtain ⟨x, hx, hxt⟩ := ((reading_suffix limit).1 depth items b h).exists_mem ht
  exact (item_of_terminatorOf? hxt) ▸ hx

theorem Clauses.Laid.opening_lt_stop {t : Clauses} {opening : Span} {c : Spanned Condition}
    {stop : Nat} (h : t.Laid source all opening c stop) : opening.stop < t.stop := by
  obtain ⟨b, bs, -, -, hd⟩ := h.divided
  obtain ⟨closing, hstop, hm, hle, -⟩ := hd.exists_closing
  exact hstop ▸ Nat.lt_of_le_of_lt hle hm.start_lt_stop

/-- A conditional stands on its span, and so does what is in it. -/
theorem Clauses.Laid.stands_node {t : Clauses} {opening : Span} {c : Spanned Condition} {stop : Nat}
    (h : t.Laid source all opening c stop)
    (ho : (Directive.ifD c).StandsAt source all opening) :
    ∀ m : Node, m.OccursIn [t.node opening.start] → m.Stands source all := by
  intro m hm
  obtain rfl | ⟨b, hb, hm⟩ | ⟨body, hbody, hm⟩ := hm.of_conditional
  · obtain ⟨b, bs, hbranches, rfl, hd⟩ := h.divided
    rw [hbranches]
    exact hd.stands ho
  · exact h.stands b.body (List.mem_append_left _ (List.mem_map_of_mem hb)) m hm
  · exact h.stands body (List.mem_append_right _ (Option.mem_toList.2 hbody)) m hm

/-- **Blocks and conditionals tile the text of their items.** -/
theorem reading_laid (limit : Nat) (hall : ∀ x ∈ all, x.node.StandsAt source x.span) :
    (∀ depth items, ∀ pos stop b, items ⊆ all → Tile pos (items.map Spanned.span) stop →
      readBlock limit depth items = .ok b → b.Laid source all pos stop) ∧
    ∀ depth opening c items, ∀ here stop t, items ⊆ all →
      Tile here.stop (items.map Spanned.span) stop →
      readClauses limit depth opening c items = .ok t → t.Laid source all here c stop := by
  apply reading_induction limit
  case nil =>
    intro depth pos stop b _ htile hb
    rw [readBlock_nil, Except.ok.injEq] at hb
    subst hb
    exact ⟨htile, fun n h => absurd h Node.not_occursIn_nil⟩
  case node =>
    intro depth x n rest hn ih pos stop b hsub htile hb
    rw [readBlock_node _ _ _ hn] at hb
    obtain ⟨b, hb', rfl⟩ := map_eq_ok_iff.1 hb
    obtain ⟨hx, hrest⟩ := List.cons_subset.1 hsub
    have hspan := span_nodeOf? hn
    cases htile with
    | cons hs htile =>
      rw [← hspan] at hs htile ⊢
      refine (ih _ _ _ hrest htile hb').cons hs fun m hm => ?_
      exact stands_of_nodeOf? (hall x hx) ((hm.of_nodeOf? hn).symm ▸ hn)
  case terminator =>
    intro depth x t rest ht pos stop b hsub htile hb
    rw [readBlock_terminator _ _ _ ht, Except.ok.injEq] at hb
    subst hb
    refine ⟨?_, fun n h => absurd h Node.not_occursIn_nil⟩
    obtain rfl := item_of_terminatorOf? ht
    obtain ⟨_ | _ | _, span⟩ := t <;> exact htile
  case opening =>
    intro depth span c rest ihc ihr pos stop b hsub htile hb
    rw [readBlock_if] at hb
    split at hb
    · cases hb
    · obtain ⟨t, ht, hb⟩ := bind_eq_ok_iff.1 hb
      obtain ⟨b, hb', rfl⟩ := map_eq_ok_iff.1 hb
      obtain ⟨hx, hrest⟩ := List.cons_subset.1 hsub
      have ho : (Directive.ifD c).StandsAt source all span := ⟨hx, hall _ hx⟩
      cases htile with
      | cons hs htile =>
        have hlaid := ihc _ _ _ hrest htile ht
        have hleft := ((reading_suffix limit).2 _ _ _ _ t ht).subset
        have hb := ihr t ht _ _ _ (List.Subset.trans hleft hrest) hlaid.rest hb'
        have hspan : span.start < t.stop := Nat.lt_trans hs hlaid.opening_lt_stop
        exact @Stretch.Laid.cons _ _ b (t.node span.start) stop hb hspan (hlaid.stands_node ho)
  case tooDeep =>
    intro depth span c rest hd pos stop b _ _ hb
    rw [readBlock_if, if_pos hd] at hb
    cases hb
  case clauses =>
    intro depth opening c items ih ihelif ihelse here stop t hsub htile ht
    rw [readClauses_eq] at ht
    obtain ⟨b, hb, ht⟩ := bind_eq_ok_iff.1 ht
    have hlaid := ih _ _ _ hsub htile hb
    have hleft := ((reading_suffix limit).1 _ _ b hb).rest_suffix.subset
    have hrest := List.Subset.trans hleft hsub
    have hmem (t : Spanned Terminator) (h : b.terminator = some t) : Terminator.item t ∈ all :=
      hsub (item_mem_of_terminator hb h)
    obtain ⟨nodes, _ | ⟨next | _ | _, span⟩, rest⟩ := b
    · cases ht
    · obtain ⟨tail, htail, rfl⟩ := map_eq_ok_iff.1 ht
      obtain ⟨hnodes, htile⟩ := hlaid.tile_terminator rfl
      have htl := ihelif _ next span hb rfl _ _ _ hrest htile htail
      have hitem := hmem _ rfl
      obtain ⟨b', bs, hbranches, rfl, hd⟩ := htl.divided
      refine ⟨⟨_, tail.branches, rfl, rfl, ?_⟩, htl.rest,
        List.forall_mem_cons.2 ⟨hlaid.stands, htl.stands⟩⟩
      rw [hbranches]
      exact .elif hnodes ⟨hitem, hall _ hitem⟩ hd
    · obtain ⟨last, hl, hlast⟩ := bind_eq_ok_iff.1 ht
      obtain ⟨nodes', _ | ⟨_ | _ | _, span'⟩, rest'⟩ := last
      case some.endifT =>
        cases hlast
        obtain ⟨hnodes, htile⟩ := hlaid.tile_terminator rfl
        have hitem := hmem _ rfl
        have hlast := ihelse _ span hb rfl _ _ _ hrest htile hl
        obtain ⟨hnodes', htile'⟩ := hlast.tile_terminator rfl
        have hitem' := hrest (item_mem_of_terminator hl rfl)
        refine ⟨⟨_, [], rfl, rfl, .otherwise hnodes ⟨hitem, hall _ hitem⟩ hnodes'
          ⟨hitem', hall _ hitem'⟩⟩, htile', List.forall_mem_cons.2 ⟨hlaid.stands, ?_⟩⟩
        exact List.forall_mem_singleton.2 hlast.stands
      all_goals cases hlast
    · cases ht
      obtain ⟨hnodes, htile⟩ := hlaid.tile_terminator rfl
      have hitem := hmem _ rfl
      refine ⟨⟨_, [], rfl, rfl, .endif hnodes ⟨hitem, hall _ hitem⟩⟩, htile, ?_⟩
      exact List.forall_mem_singleton.2 hlaid.stands

/-! ### A whole template -/

/-- A document is laid out as the one block of its template. -/
theorem laid_of_parse {limit : Nat} {source : String} {d : Document}
    (h : parse limit source = .ok d) :
    ∃ items, itemsFrom limit 0 source.toList = .ok items ∧
      Stretch.Laid source.toList items 0 source.utf8ByteSize ⟨d.nodes, none, []⟩ := by
  rw [parse_eq_ofItems] at h
  obtain ⟨items, hitems, hd⟩ := bind_eq_ok_iff.1 h
  obtain ⟨ts, hts, hi⟩ := bind_eq_ok_iff.1 hitems
  have hs := Token.scanFrom_eq_ok_iff.1 hts
  have hstart : Text.after? source.toList 0 = some source.toList :=
    Text.after?_eq_some_iff.2 ⟨[], rfl, rfl⟩
  obtain ⟨htile, hall⟩ := Item.tile_of_ofTokens hs.bracketed hs hi hstart
  rw [Nat.zero_add, size_toList] at htile
  rw [ofItems_eq] at hd
  obtain ⟨b, hb, hd⟩ := bind_eq_ok_iff.1 hd
  have hlaid := (reading_laid limit hall).1 0 items _ _ b (List.Subset.refl _) htile hb
  have hends := (reading_suffix limit).1 0 items b hb
  refine ⟨items, hitems, ?_⟩
  obtain ⟨nodes, _ | t, rest⟩ := b
  · cases hd
    obtain ⟨-, rfl⟩ | ⟨_, _, -, ⟨⟩, -⟩ := hends
    exact hlaid
  · cases hd

/-- **The nodes of a document tile the template.** They stand one right behind the other from its
first byte to its last. At every depth, a node stands on the text of its span, and the bodies of a
conditional tile what is between the directives around them and lie inside its span. -/
theorem nodes_tile {limit : Nat} {source : String} {d : Document} (h : parse limit source = .ok d) :
    ∃ items, itemsFrom limit 0 source.toList = .ok items ∧
      Tile 0 (d.nodes.map Node.span) source.utf8ByteSize ∧
      ∀ n : Node, n.OccursIn d.nodes → n.Stands source.toList items := by
  obtain ⟨items, hitems, hlaid⟩ := laid_of_parse h
  refine ⟨items, hitems, ?_, hlaid.stands⟩
  have htile := hlaid.tile
  rwa [Option.toList_none, List.map_nil, List.map_nil, List.append_nil, List.append_nil] at htile

/-- Bodies that are empty, and one that is not. -/
theorem nodes_tile_empty_bodies :
    ∃ d, parse 1 "é[% if $x %][% elif y %][% else %][[$z]]b[% endif %]" = .ok d ∧
      d.nodes.map Node.span = [⟨0, 2⟩, ⟨2, 53⟩] ∧
      ∃ items, itemsFrom 1 0 "é[% if $x %][% elif y %][% else %][[$z]]b[% endif %]".toList =
          .ok items ∧
        Tile 0 (d.nodes.map Node.span) 53 ∧
        ∀ n : Node, n.OccursIn d.nodes → n.Stands
          "é[% if $x %][% elif y %][% else %][[$z]]b[% endif %]".toList items := by
  have h : parse 1 "é[% if $x %][% elif y %][% else %][[$z]]b[% endif %]" = .ok
      ⟨[.literal "é" ⟨0, 2⟩,
        .conditional [.mk (.param "x") ⟨8, 10⟩ [], .mk (.param "y") ⟨21, 22⟩ []]
          (some [.interpolation "z" ⟨35, 41⟩, .literal "b" ⟨41, 42⟩]) ⟨2, 53⟩]⟩ := by cbv
  exact ⟨_, h, rfl, nodes_tile h⟩

end Document

end Stencil
