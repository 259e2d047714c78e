import Stencil.Proofs.Condition.Height
import Stencil.Proofs.Document.Concatenation

/-!
# What is parsed is in normal form

Literal text runs up to the first marker or to the end of the template, so what is between two
constructs is one text, with no marker in it and no `[` before one (`Token.Scans.tidy`). Tokens,
items and nodes keep this order of texts and other things, which is why `Tidy` is said of all
three. In the document that is parsed, then, nothing could be written in a simpler way, and
conditionals and conditions are only as deep as the limit allows, however long the template is
(`parse_formed`).
-/

namespace Stencil

open Literal

/-! ### Literal text between other things -/

/-- The text `s` at the span `span` is what `source` ends in. -/
def IsEnd (source : List Char) (s : String) (span : Span) : Prop :=
  s.toList <:+ source ∧ span.stop = Text.size source

/-- Things that were read from `source` one after the other: no literal text is empty, has a marker
in it or is beside another one, and only one at the end of all ends in `[`. -/
inductive Tidy {α : Type} [Literal α] (source : List Char) : List α → Prop where
  /-- No things. -/
  | nil : Tidy source []
  /-- Literal text. -/
  | text {x : α} {xs : List α} {s : String} {span : Span} (hx : text? x = some (s, span))
      (h : IsLiteralText s) (hn : ∀ y ∈ xs.head?, text? y = none)
      (he : s.toList.getLast? = some '[' → xs = [] ∧ IsEnd source s span)
      (hxs : Tidy source xs) : Tidy source (x :: xs)
  /-- Something else. -/
  | other {x : α} {xs : List α} (hx : text? x = none) (hxs : Tidy source xs) :
      Tidy source (x :: xs)

theorem Tidy.tail {α : Type} [Literal α] {source : List Char} {x : α} {xs : List α}
    (h : Tidy source (x :: xs)) : Tidy source xs := by
  cases h with
  | text _ _ _ _ h => exact h
  | other _ h => exact h

theorem Tidy.of_append {α : Type} [Literal α] {source : List Char} {xs ys : List α}
    (h : Tidy source (xs ++ ys)) : Tidy source ys := by
  induction xs with
  | nil => exact h
  | cons x xs ih => exact ih h.tail

theorem Tidy.of_text {α : Type} [Literal α] {source : List Char} {x : α} {xs : List α} {s : String}
    {span : Span} (h : Tidy source (x :: xs)) (hx : text? x = some (s, span)) :
    IsLiteralText s ∧ (∀ y ∈ xs.head?, text? y = none) ∧
      (s.toList.getLast? = some '[' → xs = [] ∧ IsEnd source s span) := by
  cases h with
  | other hx' _ =>
    rw [hx'] at hx
    cases hx
  | text hx' h hn he _ =>
    obtain ⟨rfl, rfl⟩ := Prod.mk.inj (Option.some.inj (hx'.symm.trans hx))
    exact ⟨h, hn, he⟩

/-! ### Tokens -/

namespace Token

/-- What a token names, it names as the scanner reads names. -/
theorem Spelled.isName {t : Token} {text : List Char} (h : t.Spelled text) {name : String}
    (hn : Condition.name? t = some name) : Condition.IsName name := by
  cases h with
  | @var c cs hc hcs =>
    obtain rfl : String.ofList (c :: cs) = name := Option.some.inj hn
    exact ⟨c, cs, rfl, hc, hcs⟩
  | @name c cs hc hcs =>
    refine ⟨c, cs, ?_, hc, hcs⟩
    unfold ofName at hn
    split_ifs at hn <;> cases hn
    rfl
  | _ => cases hn

theorem named_literal {pos : Nat} {cs : List Char} : ∀ t ∈ literal pos cs, Condition.Named t := by
  intro t ht
  unfold literal at ht
  split at ht
  · cases ht
  · obtain rfl := List.mem_singleton.1 ht
    exact nofun

theorem Scans.named {r : Region} {pos : Nat} {cs : List Char} {ts : List (Spanned Token)}
    (h : Scans r pos cs ts) : ∀ t ∈ ts, Condition.Named t := by
  induction h with
  | rest _ => exact named_literal
  | @opening _ _ _ _ k _ _ _ ih =>
    refine List.forall_mem_append.2 ⟨named_literal, List.forall_mem_cons.2 ⟨?_, ih⟩⟩
    cases k <;> exact nofun
  | blank _ _ ih => exact ih
  | inner ht _ _ _ ih => exact List.forall_mem_cons.2 ⟨fun _ => ht.isName, ih⟩
  | @closing k _ _ _ _ _ ih =>
    refine List.forall_mem_cons.2 ⟨?_, ih⟩
    cases k <;> exact nofun

theorem tidy_literal {source before : List Char} {pos : Nat} {ts : List (Spanned Token)}
    (hm : nextMarker before = none) (hn : ∀ y ∈ ts.head?, text? y = none)
    (he : before.getLast? = some '[' →
      ts = [] ∧ before <:+ source ∧ pos + Text.size before = Text.size source)
    (h : Tidy source ts) : Tidy source (literal pos before ++ ts) := by
  unfold literal
  split
  · exact h
  · next hne =>
    refine .text rfl ⟨?_, ?_⟩ hn ?_ h
    · simpa using hne
    · rw [String.toList_ofList]
      exact nextMarker_eq_none_iff.1 hm
    · rw [String.toList_ofList]
      intro hl
      rw [IsEnd, String.toList_ofList]
      exact he hl

/-- **The tokens of a template are tidy.** -/
theorem Scans.tidy {source : List Char} {r : Region} {pos : Nat} {cs : List Char}
    {ts : List (Spanned Token)} (h : Scans r pos cs ts) (hc : cs <:+ source)
    (hp : pos + Text.size cs = Text.size source) : Tidy source ts := by
  induction h with
  | @rest pos cs hm =>
    rw [← List.append_nil (literal pos cs)]
    exact tidy_literal hm nofun (fun _ => ⟨rfl, hc, hp⟩) .nil
  | @opening pos cs before rest k ts hm h ih =>
    obtain ⟨rfl, hb, hk⟩ := nextMarker_eq_some_iff.1 hm
    have hr : Tidy source ts := by
      refine ih ((List.suffix_append _ _).trans hc) ?_
      rw [← hp, Text.size_append, Text.size_append, size_openText]
      omega
    refine tidy_literal hb (by simpa using text?_openToken k _) (fun hl => ?_)
      (.other (text?_openToken k _) hr)
    -- a marker would begin one character earlier
    exact absurd ⟨hl, by cases k <;> simp [Construct.openText]⟩ hk
  | @blank k start pos c cs ts hb h ih =>
    refine ih ((List.suffix_cons c cs).trans hc) ?_
    rw [← hp, Text.size_cons]
    omega
  | @inner k start pos t text rest ts ht he hk h ih =>
    refine .other (text?_token_eq_none ht.ne_text) (ih ((List.suffix_append _ _).trans hc) ?_)
    rw [← hp, Text.size_append]
    omega
  | @closing k start pos rest ts h ih =>
    refine .other (text?_closeToken k _) (ih ((List.suffix_append _ _).trans hc) ?_)
    rw [← hp, Text.size_append, size_closeText]
    omega

end Token

/-! ### Items -/

namespace Item

/-- An item whose names are names and whose condition is formed and only so high. -/
def Proper (limit : Nat) : Item → Prop
  | .interpolation name => Condition.IsName name
  | .directive (.ifD c) | .directive (.elifD c) => c.node.Within (3 * limit + 4)
  | _ => True

/-- The items of a template, or what is left of them. -/
structure Normal (source : List Char) (limit : Nat) (items : List (Spanned Item)) : Prop where
  /-- Literal text is where it may be. -/
  tidy : Tidy source items
  /-- The constructs are proper. -/
  proper : ∀ x ∈ items, x.node.Proper limit

theorem Normal.of_suffix {source : List Char} {limit : Nat} {xs ys : List (Spanned Item)}
    (h : Normal source limit ys) (hs : xs <:+ ys) : Normal source limit xs := by
  obtain ⟨before, rfl⟩ := hs
  exact ⟨h.tidy.of_append, fun y hy => h.proper y (List.mem_append_right before hy)⟩

theorem Normal.tail {source : List Char} {limit : Nat} {x : Spanned Item}
    {items : List (Spanned Item)} (h : Normal source limit (x :: items)) :
    Normal source limit items :=
  h.of_suffix (List.suffix_cons x items)

theorem proper_of_alone {limit : Nat} {keyword : Keyword} {d d' : Directive}
    {args : List (Spanned Token)} (h : alone keyword d args = .ok d')
    (hd : (Item.directive d).Proper limit) : (Item.directive d').Proper limit := by
  unfold alone at h
  split at h
  · cases h
    exact hd
  · cases h

theorem proper_of_directive? {limit : Nat} {full : Span} {inner : List (Spanned Token)}
    {d : Directive} (h : directive? limit full inner = .ok d)
    (hn : ∀ t ∈ inner, Condition.Named t) : (Item.directive d).Proper limit := by
  cases inner with
  | nil => cases h
  | cons head args =>
    have hargs := (List.forall_mem_cons.1 hn).2
    simp only [directive?] at h
    split at h
    · obtain ⟨c, hc, rfl⟩ := map_eq_ok_iff.1 h
      exact Condition.within_of_parse hc hargs
    · obtain ⟨c, hc, rfl⟩ := map_eq_ok_iff.1 h
      exact Condition.within_of_parse hc hargs
    · exact proper_of_alone h trivial
    · exact proper_of_alone h trivial
    · split at h
      · cases h
        trivial
      · cases h
    · cases h

/-- What the tokens between markers make is proper. -/
theorem proper_of_construct? {limit : Nat} {full : Span} {inner : List (Spanned Token)}
    {k : Construct} {item : Item} (h : construct? limit full inner k = .ok item)
    (hn : ∀ t ∈ inner, Condition.Named t) : item.Proper limit := by
  cases k with
  | interpolation =>
    simp only [construct?] at h
    split at h
    · cases h
      exact hn _ List.mem_cons_self _ rfl
    · cases h
  | directive =>
    simp only [construct?] at h
    obtain ⟨d, hd, rfl⟩ := map_eq_ok_iff.1 h
    exact proper_of_directive? hd hn

/-- Items begin with literal text only if the tokens do. -/
theorem head?_ofTokens {limit : Nat} {ts : List (Spanned Token)} {items : List (Spanned Item)}
    (hb : Token.Bracketed ts) (hts : ∀ t ∈ ts.head?, text? t = none)
    (h : ofTokens limit ts = .ok items) : ∀ x ∈ items.head?, text? x = none := by
  cases hb with
  | nil =>
    rw [ofTokens_nil, Except.ok.injEq] at h
    subst h
    exact nofun
  | text _ => exact absurd (hts _ rfl) nofun
  | construct hin _ _ =>
    rw [ofTokens_construct hin] at h
    obtain ⟨item, hc, h⟩ := bind_eq_ok_iff.1 h
    obtain ⟨more, -, rfl⟩ := map_eq_ok_iff.1 h
    simpa using text?_construct? hc

/-- **The items of tidy tokens are in normal form.** -/
theorem normal_of_ofTokens {source : List Char} {limit : Nat} {ts : List (Spanned Token)}
    {items : List (Spanned Item)} (hb : Token.Bracketed ts) (ht : Tidy source ts)
    (hn : ∀ t ∈ ts, Condition.Named t) (h : ofTokens limit ts = .ok items) :
    Normal source limit items := by
  induction hb generalizing items with
  | nil =>
    rw [ofTokens_nil, Except.ok.injEq] at h
    subst h
    exact ⟨.nil, nofun⟩
  | @text s span ts hb ih =>
    rw [ofTokens_text] at h
    obtain ⟨more, hm, rfl⟩ := map_eq_ok_iff.1 h
    have hmore := ih ht.tail (List.forall_mem_cons.1 hn).2 hm
    refine ⟨?_, List.forall_mem_cons.2 ⟨trivial, hmore.proper⟩⟩
    obtain ⟨hs, hh, he⟩ := ht.of_text rfl
    refine .text rfl hs (head?_ofTokens hb hh hm) (fun hl => ?_) hmore.tidy
    obtain ⟨rfl, hend⟩ := he hl
    rw [ofTokens_nil, Except.ok.injEq] at hm
    exact ⟨hm.symm, hend⟩
  | @construct k opening closing inner ts hin hw hb ih =>
    rw [ofTokens_construct hin] at h
    obtain ⟨item, hc, h⟩ := bind_eq_ok_iff.1 h
    obtain ⟨more, hm, rfl⟩ := map_eq_ok_iff.1 h
    obtain ⟨hni, hnt⟩ := List.forall_mem_append.1 (List.forall_mem_cons.1 hn).2
    have hmore := ih ht.tail.of_append.tail (List.forall_mem_cons.1 hnt).2 hm
    exact ⟨.other (text?_construct? hc) hmore.tidy,
      List.forall_mem_cons.2 ⟨proper_of_construct? hc hni, hmore.proper⟩⟩

end Item

/-! ### Nodes -/

/-- In a node conditionals nest at most `depth` deep, and no condition is higher than `height`. -/
inductive Node.Shallow (height : Nat) : Nat → Node → Prop where
  /-- Literal text. -/
  | literal {depth : Nat} {s : String} {span : Span} : Shallow height depth (.literal s span)
  /-- The value of a parameter. -/
  | interpolation {depth : Nat} {name : String} {span : Span} :
      Shallow height depth (.interpolation name span)
  /-- An include. -/
  | inclusion {depth : Nat} {path : String} {span : Span} :
      Shallow height depth (.inclusion path span)
  /-- A conditional. -/
  | conditional {depth : Nat} {branches : List Branch} {otherwise : Option (List Node)}
      {span : Span}
      (hc : ∀ b ∈ branches, b.condition.height ≤ height)
      (hn : ∀ b ∈ branches, ∀ n ∈ b.body, Shallow height depth n)
      (hno : ∀ ns ∈ otherwise, ∀ n ∈ ns, Shallow height depth n) :
      Shallow height (depth + 1) (.conditional branches otherwise span)

theorem Node.isLiteral_eq_false {n : Node} (h : text? n = none) : n.isLiteral = false := by
  cases n with
  | literal s span => cases h
  | _ => rfl

/-- Tidy nodes have no literal text beside literal text. -/
theorem Tidy.separate {source : List Char} {ns : List Node} (h : Tidy source ns) :
    Node.Separate ns := by
  induction h with
  | nil => exact .nil
  | @text n ns s span hx _ hn _ _ ih =>
    refine List.isChain_cons.2 ⟨fun m hm => ?_, ih⟩
    rw [Node.isLiteral_eq_false (hn m hm)]
    simp
  | @other n ns hx _ ih =>
    refine List.isChain_cons.2 ⟨fun m _ => ?_, ih⟩
    rw [Node.isLiteral_eq_false hx]
    simp

/-- Only the last of tidy nodes may end in `[`. -/
theorem Tidy.sealed_of_mem_dropLast {source : List Char} {ns : List Node} (h : Tidy source ns) :
    ∀ n ∈ ns.dropLast, n.Sealed := by
  induction ns with
  | nil => nofun
  | cons n ns ih =>
    cases ns with
    | nil => nofun
    | cons m ms =>
      rw [List.dropLast_cons_cons]
      refine List.forall_mem_cons.2 ⟨?_, ih h.tail⟩
      rintro s span rfl hl
      exact List.cons_ne_nil m ms ((h.of_text rfl).2.2 hl).1

/-- Where tidy nodes have literal text that ends in `[`, the template ends. -/
theorem Tidy.isEnd {source : List Char} {ns : List Node} (h : Tidy source ns) {s : String}
    {span : Span} (hs : .literal s span ∈ ns) (hl : s.toList.getLast? = some '[') :
    IsEnd source s span := by
  induction ns with
  | nil => cases hs
  | cons n ns ih =>
    obtain rfl | hs := List.mem_cons.1 hs
    · exact ((h.of_text rfl).2.2 hl).2
    · exact ih h.tail hs

/-! ### Blocks -/

/-- The nodes of a block that something ends, inside a conditional. -/
structure Node.Body (limit depth : Nat) (ns : List Node) : Prop where
  /-- A template can stand for them. -/
  formed : ∀ n ∈ ns, n.Formed
  /-- Conditionals and conditions are only so deep in them. -/
  shallow : ∀ n ∈ ns, n.Shallow (3 * limit + 4) depth
  /-- No literal text is beside literal text. -/
  separate : Node.Separate ns
  /-- None ends in `[`. -/
  isSealed : ∀ n ∈ ns, n.Sealed

namespace Document

/-- A block inside of which conditionals nest at most `depth` deep. -/
structure Stretch.Normal (source : List Char) (limit depth : Nat) (b : Stretch) : Prop where
  /-- A template can stand for the nodes. -/
  formed : ∀ n ∈ b.nodes, n.Formed
  /-- Conditionals and conditions are only so deep in them. -/
  shallow : ∀ n ∈ b.nodes, n.Shallow (3 * limit + 4) depth
  /-- Literal text is where it may be. -/
  tidy : Tidy source b.nodes
  /-- No literal text ends in `[` before what ends the block. -/
  isSealed : b.terminator ≠ none → ∀ n ∈ b.nodes, n.Sealed

theorem Stretch.Normal.body {source : List Char} {limit depth : Nat} {b : Stretch}
    (h : b.Normal source limit depth) {t : Spanned Terminator} (ht : b.terminator = some t) :
    Node.Body limit depth b.nodes where
  formed := h.formed
  shallow := h.shallow
  separate := h.tidy.separate
  isSealed := h.isSealed (by simp [ht])

/-- The clauses of a conditional inside of which conditionals nest at most `depth` deep. -/
structure Clauses.Normal (limit depth : Nat) (t : Clauses) : Prop where
  /-- There is a branch. -/
  branches_ne_nil : t.branches ≠ []
  /-- The conditions are proper. -/
  conditions : ∀ b ∈ t.branches, b.condition.Within (3 * limit + 4)
  /-- The bodies are proper. -/
  bodies : ∀ b ∈ t.branches, Node.Body limit depth b.body
  /-- So is the last part. -/
  last : ∀ ns ∈ t.otherwise, Node.Body limit depth ns

section

variable {source : List Char} {limit depth : Nat}

theorem Clauses.Normal.formed {t : Clauses} (h : t.Normal limit depth) (start : Nat) :
    (t.node start).Formed :=
  .conditional h.branches_ne_nil (fun b hb => (h.conditions b hb).formed)
    (fun b hb => (h.bodies b hb).formed)
    (fun b hb => ⟨(h.bodies b hb).separate, (h.bodies b hb).isSealed⟩)
    (fun ns hns => (h.last ns hns).formed)
    (fun ns hns => ⟨(h.last ns hns).separate, (h.last ns hns).isSealed⟩)

theorem Clauses.Normal.shallow {t : Clauses} (h : t.Normal limit depth) (start : Nat) :
    (t.node start).Shallow (3 * limit + 4) (depth + 1) :=
  .conditional (fun b hb => (h.conditions b hb).height_le) (fun b hb => (h.bodies b hb).shallow)
    (fun ns hns => (h.last ns hns).shallow)

/-- A terminator comes from an item. -/
theorem ne_nil_of_terminator {items : List (Spanned Item)} {b : Stretch}
    (h : readBlock limit depth items = .ok b) (ht : b.terminator ≠ none) : items ≠ [] := by
  rintro rfl
  rw [readBlock_nil, Except.ok.injEq] at h
  subst h
  exact ht rfl

/-- What an item makes by itself is proper. -/
theorem formed_of_nodeOf? {x : Spanned Item} {n : Node} {rest : List (Spanned Item)}
    (hx : nodeOf? x = some n) (hi : Item.Normal source limit (x :: rest)) :
    n.Formed ∧ n.Shallow (3 * limit + 4) depth := by
  have hp := hi.proper x List.mem_cons_self
  unfold nodeOf? at hx
  split at hx
  · cases hx
    exact ⟨.literal (hi.tidy.of_text rfl).1, .literal⟩
  · cases hx
    exact ⟨.interpolation hp, .interpolation⟩
  · cases hx
    exact ⟨.inclusion, .inclusion⟩
  · cases hx

/-- One more node before a block, made from an item by itself. -/
theorem Stretch.Normal.cons {x : Spanned Item} {n : Node} {rest : List (Spanned Item)} {b : Stretch}
    {room : Nat} (hb : b.Normal source limit room) (hr : readBlock limit depth rest = .ok b)
    (hx : nodeOf? x = some n) (hi : Item.Normal source limit (x :: rest)) :
    (b.cons n).Normal source limit room := by
  obtain ⟨hf, hs⟩ := formed_of_nodeOf? hx hi
  refine ⟨List.forall_mem_cons.2 ⟨hf, hb.formed⟩, List.forall_mem_cons.2 ⟨hs, hb.shallow⟩, ?_,
    fun ht => List.forall_mem_cons.2 ⟨?_, hb.isSealed ht⟩⟩
  · cases ht : text? x with
    | none => exact .other ((text?_nodeOf? hx).trans ht) hb.tidy
    | some p =>
      obtain ⟨s, span⟩ := p
      obtain ⟨hl, hh, he⟩ := hi.tidy.of_text ht
      refine .text ((text?_nodeOf? hx).trans ht) hl (head?_readBlock hh hr) (fun h => ?_) hb.tidy
      obtain ⟨rfl, hend⟩ := he h
      rw [readBlock_nil, Except.ok.injEq] at hr
      exact ⟨hr ▸ rfl, hend⟩
  · -- what ends the block comes after the text, so the text is not the last thing there is
    rintro s span rfl hl
    exact ne_nil_of_terminator hr ht ((hi.tidy.of_text (text?_nodeOf? hx).symm).2.2 hl).1

/-- One more conditional before a block. -/
theorem Stretch.Normal.cons_clauses {t : Clauses} {b : Stretch}
    (hb : b.Normal source limit (depth + 1)) (ht : t.Normal limit depth) (start : Nat) :
    (b.cons (t.node start)).Normal source limit (depth + 1) where
  formed := List.forall_mem_cons.2 ⟨ht.formed start, hb.formed⟩
  shallow := List.forall_mem_cons.2 ⟨ht.shallow start, hb.shallow⟩
  tidy := .other rfl hb.tidy
  isSealed h := List.forall_mem_cons.2 ⟨nofun, hb.isSealed h⟩

/-- The condition of an `elif` is proper. -/
theorem within_of_terminatorOf? {x : Spanned Item} {next : Spanned Condition} {span : Span}
    (hx : terminatorOf? x = some ⟨.elifT next, span⟩) (hp : x.node.Proper limit) :
    next.node.Within (3 * limit + 4) := by
  unfold terminatorOf? at hx
  split at hx <;> cases hx
  exact hp

/-- What follows the body of a branch is in normal form if the rest of the clauses are. -/
theorem normal_of_readAfter {opening : Span} {c : Spanned Condition} {b : Stretch} {t : Clauses}
    (h : readAfter limit depth opening c b = .ok t) {room : Nat}
    (hc : c.node.Within (3 * limit + 4)) (hb : b.Normal source limit room)
    (helif : ∀ next span, b.terminator = some ⟨.elifT next, span⟩ →
      ∀ t, readClauses limit depth opening next b.rest = .ok t → t.Normal limit room)
    (helse : ∀ span, b.terminator = some ⟨.elseT, span⟩ →
      ∀ last, readBlock limit depth b.rest = .ok last → last.Normal source limit room) :
    t.Normal limit room := by
  obtain ⟨nodes, _ | ⟨next | _ | _, span⟩, rest⟩ := b
  · cases h
  · obtain ⟨tail, ht, rfl⟩ := map_eq_ok_iff.1 h
    have htail := helif next span rfl tail ht
    exact ⟨List.cons_ne_nil _ _, List.forall_mem_cons.2 ⟨hc, htail.conditions⟩,
      List.forall_mem_cons.2 ⟨hb.body rfl, htail.bodies⟩, htail.last⟩
  · obtain ⟨last, hl, hlast⟩ := bind_eq_ok_iff.1 h
    have hn := helse span rfl last hl
    obtain ⟨nodes', _ | ⟨_ | _ | _, span'⟩, rest'⟩ := last
    case some.endifT =>
      cases hlast
      exact ⟨List.cons_ne_nil _ _, List.forall_mem_singleton.2 hc,
        List.forall_mem_singleton.2 (hb.body rfl), fun ns hns => Option.some.inj hns ▸ hn.body rfl⟩
    all_goals cases hlast
  · cases h
    exact ⟨List.cons_ne_nil _ _, List.forall_mem_singleton.2 hc,
      List.forall_mem_singleton.2 (hb.body rfl), nofun⟩

end

/-- **Blocks and clauses of items in normal form are in normal form.** -/
theorem reading_normal (source : List Char) (limit : Nat) :
    (∀ depth items, Item.Normal source limit items → ∀ b, readBlock limit depth items = .ok b →
      b.Normal source limit (limit - depth)) ∧
    ∀ depth opening c items, c.node.Within (3 * limit + 4) → Item.Normal source limit items →
      ∀ t, readClauses limit depth opening c items = .ok t →
        t.Normal limit (limit - depth) := by
  have hleft := reading_suffix limit
  apply reading_induction limit
  case nil =>
    intro depth hi b hb
    rw [readBlock_nil, Except.ok.injEq] at hb
    subst hb
    exact ⟨nofun, nofun, .nil, fun _ => nofun⟩
  case node =>
    intro depth x n rest hx ih hi b hb
    rw [readBlock_node _ _ _ hx] at hb
    obtain ⟨b, hb', rfl⟩ := map_eq_ok_iff.1 hb
    exact (ih hi.tail b hb').cons hb' hx hi
  case terminator =>
    intro depth x t rest ht hi b hb
    rw [readBlock_terminator _ _ _ ht, Except.ok.injEq] at hb
    subst hb
    exact ⟨nofun, nofun, .nil, fun _ => nofun⟩
  case opening =>
    intro depth span c rest ihc ihr hi b hb
    rw [readBlock_if] at hb
    split_ifs at hb with hd
    obtain ⟨t, ht, hb⟩ := bind_eq_ok_iff.1 hb
    obtain ⟨b, hb', rfl⟩ := map_eq_ok_iff.1 hb
    have hcl := ihc (hi.proper _ List.mem_cons_self) hi.tail t ht
    have hbl := ihr t ht (hi.tail.of_suffix (hleft.2 _ _ _ _ t ht)) b hb'
    have hdepth : limit - depth = limit - (depth + 1) + 1 := by omega
    rw [hdepth] at hbl ⊢
    exact hbl.cons_clauses hcl span.start
  case tooDeep =>
    intro depth span c rest hd hi b hb
    rw [readBlock_if, if_pos hd] at hb
    cases hb
  case clauses =>
    intro depth opening c items ih ihelif ihelse hc hi t ht
    rw [readClauses_eq] at ht
    obtain ⟨b, hb, ht⟩ := bind_eq_ok_iff.1 ht
    have he := hleft.1 _ _ b hb
    have hr := hi.of_suffix he.rest_suffix
    refine normal_of_readAfter ht hc (ih hi b hb) (fun next span h => ?_)
      fun span h => ihelse b span hb h hr
    obtain ⟨x, hx, hnext⟩ := he.exists_mem h
    exact ihelif b next span hb h (within_of_terminatorOf? hnext (hi.proper x hx)) hr

/-! ### Templates -/

/-- **Every document that is parsed is in normal form, and only so deep.** A template can stand for
it: names are names, only two or more operands are joined, a conditional has a branch, and no two
literal texts could be one. Literal text ends in `[` only at the end of the template. Conditionals
nest at most `limit` deep, and no path through a condition has more than `3 * limit + 4` nodes. -/
theorem parse_formed {limit : Nat} {source : String} {d : Document}
    (h : parse limit source = .ok d) :
    d.Formed ∧
      (∀ s span, .literal s span ∈ d.nodes → s.toList.getLast? = some '[' →
        s.toList <:+ source.toList ∧ span.stop = source.utf8ByteSize) ∧
      ∀ n ∈ d.nodes, n.Shallow (3 * limit + 4) limit := by
  rw [parse_eq] at h
  obtain ⟨ts, hts, h⟩ := bind_eq_ok_iff.1 h
  obtain ⟨items, hi, h⟩ := bind_eq_ok_iff.1 h
  rw [ofItems_eq] at h
  obtain ⟨b, hb, h⟩ := bind_eq_ok_iff.1 h
  have hs := Token.scanFrom_eq_ok_iff.1 hts
  have hn := Item.normal_of_ofTokens hs.bracketed
    (hs.tidy (List.suffix_refl _) (Nat.zero_add _)) hs.named hi
  have hbn := (reading_normal source.toList limit).1 0 items hn b hb
  cases ht : b.terminator with
  | some t =>
    rw [ht] at h
    cases h
  | none =>
    rw [ht, Except.ok.injEq] at h
    subst h
    refine ⟨⟨hbn.formed, hbn.tidy.separate, hbn.tidy.sealed_of_mem_dropLast⟩, ?_, hbn.shallow⟩
    intro s span hmem hl
    rw [← size_toList]
    exact hbn.tidy.isEnd hmem hl

/-- With one pair of parentheses seven nodes can stand on a path through a condition; and a `[` is
left over at the end. -/
theorem parse_formed_of_one_conditional :
    let c : Condition :=
      .or [.param "a", .and [.param "b",
        .not (.or [.param "c", .and [.param "d", .not (.param "e")]])]]
    let d : Document :=
      ⟨[.conditional [.mk c ⟨6, 39⟩ [.literal "x" ⟨42, 43⟩]] none ⟨0, 54⟩, .literal "y[" ⟨54, 56⟩]⟩
    parse 1 "[% if a or b and not (c or d and not e) %]x[% endif %]y[" = .ok d ∧
      c.height = 7 ∧ d.Formed ∧ (∀ n ∈ d.nodes, n.Shallow 7 1) ∧
      "y[".toList <:+ "[% if a or b and not (c or d and not e) %]x[% endif %]y[".toList := by
  intro c d
  have h : parse 1 "[% if a or b and not (c or d and not e) %]x[% endif %]y[" = .ok d := by cbv
  obtain ⟨hf, he, hs⟩ := parse_formed h
  exact ⟨h, by decide, hf, hs, (he "y[" ⟨54, 56⟩ (by simp [d]) (by decide)).1⟩

end Document

end Stencil
