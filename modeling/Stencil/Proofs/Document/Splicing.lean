import Stencil.Proofs.Document.Occurrence
import Stencil.Proofs.Document.Replacing
import Stencil.Proofs.Token.Cutting

/-!
# A template in the place of a construct

An include or an interpolation is cut out of the text of a template, and the text of another
template is put in its place. The new text is read as the items before the construct, those of the
other template and those behind the construct, put together where they meet. So it parses, unless
blocks now nest too deep, and its document may stand for the old one if the nodes of the other
template may stand for the node of the construct (`parse_splice`).
-/

namespace Stencil

open Literal

/-! ### Items of a construct -/

namespace Item

/-- An item is made from the tokens of a construct; the tokens before and behind it make the items
before and behind it. -/
inductive MadeIn (limit : Nat) (x : Spanned Item) :
    List (Spanned Token) → List (Spanned Item) → Prop where
  /-- The construct, with what stands before and behind it. -/
  | mk {k : Construct} {opening closing : Span} {before inner after : List (Spanned Token)}
      {items more : List (Spanned Item)} (hb : Token.Bracketed before)
      (hi : ∀ t ∈ inner, Token.Inside k t.node)
      (hw : closing.stop = closing.start + Construct.markSize) (ha : Token.Bracketed after)
      (hitems : ofTokens limit before = .ok items) (hmore : ofTokens limit after = .ok more)
      (hx : x.span = ⟨opening.start, closing.stop⟩) :
      MadeIn limit x
        (before ++ ⟨k.openToken, opening⟩ :: (inner ++ ⟨k.closeToken, closing⟩ :: after))
        (items ++ x :: more)

/-- Every item but literal text is made from a construct. -/
theorem madeIn_of_mem {limit : Nat} {ts : List (Spanned Token)} {items : List (Spanned Item)}
    {x : Spanned Item} (h : Token.Bracketed ts) (hi : ofTokens limit ts = .ok items)
    (hx : x ∈ items) (ht : text? x = none) : MadeIn limit x ts items := by
  induction h generalizing items with
  | nil =>
    rw [ofTokens_nil] at hi
    cases hi
    cases hx
  | @text s span ts h ih =>
    rw [ofTokens_text] at hi
    obtain ⟨more, hm, rfl⟩ := map_eq_ok_iff.1 hi
    obtain rfl | hx := List.mem_cons.1 hx
    · cases ht
    · cases ih hm hx with
      | @mk k opening closing before inner after items more hb hin hw ha hitems hmore hspan =>
        have hfront : ofTokens limit (⟨.text s, span⟩ :: before) =
            .ok (⟨.text s, span⟩ :: items) := by
          rw [ofTokens_text, hitems, map_ok]
        exact MadeIn.mk (.text hb) hin hw ha hfront hmore hspan
  | @construct k opening closing inner ts hin hw h ih =>
    rw [ofTokens_construct hin] at hi
    obtain ⟨item, hitem, hi⟩ := bind_eq_ok_iff.1 hi
    obtain ⟨more, hm, rfl⟩ := map_eq_ok_iff.1 hi
    obtain rfl | hx := List.mem_cons.1 hx
    · exact @MadeIn.mk limit _ k opening closing [] inner ts [] more .nil hin hw h
        (ofTokens_nil limit) hm rfl
    · cases ih hm hx with
      | @mk k' opening' closing' before inner' after items more hb hin' hw' ha hitems hmore hspan =>
        have hfront : ofTokens limit
            (⟨k.openToken, opening⟩ :: (inner ++ ⟨k.closeToken, closing⟩ :: before)) =
            .ok (⟨item, opening.start, closing.stop⟩ :: items) := by
          rw [ofTokens_construct hin, hitem, ok_bind, hitems, map_ok]
        have hmade := MadeIn.mk (.construct hin hw hb) hin' hw' ha hfront hmore hspan
        simpa only [List.cons_append, List.append_assoc] using hmade

end Item

namespace Document

/-! ### Items of a text -/

/-- The items of a text that begins at byte offset `pos`. -/
def itemsFrom (limit pos : Nat) (cs : List Char) : Except ParseError (List (Spanned Item)) :=
  Token.scanFrom .outside pos cs >>= Item.ofTokens limit

/-- A template is read item by item, and blocks are made of the items. -/
theorem parse_eq_ofItems (limit : Nat) (source : String) :
    parse limit source = itemsFrom limit 0 source.toList >>= ofItems limit := by
  rw [parse_eq, itemsFrom, bind_assoc]

/-- The items are put together in one pass. -/
theorem parse_eq_run (limit : Nat) (source : String) :
    parse limit source = itemsFrom limit 0 source.toList >>= Pass.start.run limit := by
  rw [parse_eq_ofItems]
  congr 1
  funext items
  rw [ofItems_eq, (Pass.run_eq limit).1 0 items .start rfl]
  congr 1
  funext b
  obtain ⟨nodes, _ | ⟨_ | _ | _, span⟩, rest⟩ := b <;> rfl

/-- The items of a text that begins elsewhere are the same items at other offsets. -/
theorem exists_move_itemsFrom {limit m : Nat} {cs : List Char} {items : List (Spanned Item)}
    (h : itemsFrom limit m cs = .ok items) (n : Nat) :
    ∃ g, itemsFrom limit n cs = .ok (items.map (Item.moveAt g)) := by
  have hadd : ∀ k, itemsFrom limit k cs =
      mapBoth (·.move (· + k)) (List.map (Item.moveAt (· + k))) (itemsFrom limit 0 cs) := by
    intro k
    have hshift := Token.scanFrom_shift k .outside 0 cs
    simp only [Token.Region.shift, Nat.zero_add] at hshift
    rw [itemsFrom, itemsFrom, hshift]
    refine mapBoth_bind _ fun ts hts => ?_
    exact Item.ofTokens_move (keepsMarks_add k) limit (Token.scanFrom_eq_ok_iff.1 hts).bracketed
  rw [hadd] at h
  obtain ⟨found, hfound, rfl⟩ := mapBoth_eq_ok_iff.1 h
  -- back to the beginning, and from there to `n`
  have hmove : (Item.moveAt fun i => i - m + n) ∘ Item.moveAt (· + m) = Item.moveAt (· + n) := by
    funext x
    rw [Function.comp_apply, Item.moveAt_moveAt]
    simp only [Nat.add_sub_cancel]
  refine ⟨fun i => i - m + n, ?_⟩
  rw [hadd, hfound, mapBoth_ok, List.map_map, hmove]

/-- The items of two texts, one after the other. -/
theorem itemsFrom_append {limit pos : Nat} {cs ds : List Char} {items : List (Spanned Item)}
    (h : itemsFrom limit pos cs = .ok items) (hs : Seam cs ds) :
    itemsFrom limit pos (cs ++ ds) = weld items <$> itemsFrom limit (pos + Text.size cs) ds := by
  obtain ⟨ts, hts, hi⟩ := bind_eq_ok_iff.1 h
  rw [Token.scanFrom_eq_ok_iff] at hts
  rw [itemsFrom, itemsFrom, Token.scanFrom_append hts hs]
  cases hus : Token.scanFrom .outside (pos + Text.size cs) ds with
  | error e => rfl
  | ok us =>
    exact Item.ofTokens_weld hts.bracketed (Token.scanFrom_eq_ok_iff.1 hus).bracketed hi

/-- Every item but literal text is cut out of the text with what it was read from. -/
theorem exists_cut_of_mem {limit : Nat} {cs : List Char} {items : List (Spanned Item)}
    {x : Spanned Item} (h : itemsFrom limit 0 cs = .ok items) (hx : x ∈ items)
    (ht : text? x = none) :
    ∃ before old after front back, cs = before ++ old ++ after ∧
      itemsFrom limit 0 before = .ok front ∧
      itemsFrom limit (Text.size (before ++ old)) after = .ok back ∧ items = front ++ x :: back ∧
      x.span = ⟨Text.size before, Text.size (before ++ old)⟩ ∧ before.getLast? ≠ some '[' := by
  obtain ⟨ts, hts, hi⟩ := bind_eq_ok_iff.1 h
  rw [Token.scanFrom_eq_ok_iff] at hts
  cases Item.madeIn_of_mem hts.bracketed hi hx ht with
  | mk hb hin hw ha hfront hback hspan =>
    obtain ⟨before, old, after, rfl, hbefore, hafter, hlast, hstart, hstop⟩ :=
      hts.cut_construct hb hin hw
    rw [Nat.zero_add] at hafter hstart hstop
    refine ⟨before, old, after, _, _, rfl, ?_, ?_, rfl, ?_, hlast⟩
    · rw [itemsFrom, Token.scanFrom_of_scans hbefore, ok_bind, hfront]
    · rw [itemsFrom, Token.scanFrom_of_scans hafter, ok_bind, hback]
    · rw [hspan, hstart, hstop]

/-! ### The splice -/

theorem span_nodeOf? {x : Spanned Item} {n : Node} (h : nodeOf? x = some n) : n.span = x.span := by
  unfold nodeOf? at h
  split at h
  case h_4 => cases h
  all_goals
    cases h
    rfl

/-- **A template in the place of an include or an interpolation** makes a template that parses,
unless blocks nest too deep, and whose document may stand for the old one. The two texts only must
not make a marker where the spliced one ends. -/
theorem parse_splice {R : List Node → List Node → Prop} (hR : Node.Compatible R) {limit : Nat}
    {source content : String} {d c : Document} {n : Node} (hd : parse limit source = .ok d)
    (ho : n.OccursIn d.nodes)
    (hn : ∀ branches otherwise span, n ≠ .conditional branches otherwise span)
    (ht : text? n = none) (hc : parse limit content = .ok c) (hnc : R [n] c.nodes)
    (hs : ∀ after, Text.after? source.toList n.span.stop = some after → Seam content.toList after) :
    ∃ spliced : String,
      Text.splice? source.toList n.span content.toList = some spliced.toList ∧
      ((∃ d', parse limit spliced = .ok d' ∧ R d.nodes d'.nodes) ∨
        ∃ span, parse limit spliced = .error ⟨.tooDeep limit, span⟩) := by
  rw [parse_eq_run] at hd hc
  obtain ⟨items, hitems, hrun⟩ := bind_eq_ok_iff.1 hd
  obtain ⟨inside, hinside, hrunc⟩ := bind_eq_ok_iff.1 hc
  obtain ⟨x, hx, hxn⟩ := exists_item_of_occursIn hrun hn ho
  obtain ⟨before, old, after, front, back, hcs, hfront, hback, rfl, hspan, hlast⟩ :=
    exists_cut_of_mem hitems hx ((text?_nodeOf? hxn).symm.trans ht)
  rw [span_nodeOf? hxn, hspan, hcs] at hs ⊢
  have hseam := hs after (Text.after?_append _ after)
  have hseam' : Seam before (content.toList ++ after) := fun h => hlast h.1
  obtain ⟨g, hg⟩ := exists_move_itemsFrom hinside (0 + Text.size before)
  obtain ⟨g', hg'⟩ :=
    exists_move_itemsFrom hback (0 + Text.size before + Text.size content.toList)
  have hnew : itemsFrom limit 0 (before ++ content.toList ++ after) =
      .ok (weld front (weld (inside.map (Item.moveAt g)) (back.map (Item.moveAt g')))) := by
    rw [List.append_assoc, itemsFrom_append hfront hseam', itemsFrom_append hg hseam, hg']
    rfl
  refine ⟨String.ofList (before ++ content.toList ++ after), ?_, ?_⟩
  · rw [Text.splice?_append, String.toList_ofList]
  · rw [parse_eq_run, String.toList_ofList, hnew, ok_bind]
    exact Pass.run_replaced hR hxn hrun hrunc hnc g g'

end Document

end Stencil
