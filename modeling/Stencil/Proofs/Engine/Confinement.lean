import Mathlib
import Stencil.Engine
import Stencil.Proofs.FileTree
import Stencil.Proofs.Include.Sandbox

/-!
# Files outside the sandbox

Where a path leads depends on directories, links and names, and not on what any file holds
(`walkFrom_outlined`). A file is looked at only after its place was found to lie below the root. So
two file trees that differ in nothing but what files outside the root hold are the same to an
engine, whatever it renders and however the render ends (`render_eq_of_alikeBelow`).
-/

namespace Stencil

/-- The node without what a file holds. -/
def FileNode.outline : FileNode → FileNode
  | file _ => file .empty
  | n => n

namespace FileTree

/-- What a walk comes to, without what a file holds. -/
def outlined (x : Place × FileNode) : Place × FileNode := (x.1, x.2.outline)

/-- Two trees with the same directories, links and names of files. -/
def SameLayout (t t' : FileTree) : Prop :=
  ∀ place, (t.node? place).map FileNode.outline = (t'.node? place).map FileNode.outline

/-- Two trees with the same directories, links and names of files, and the same files below
`root`. -/
structure AlikeBelow (root : Place) (t t' : FileTree) : Prop where
  /-- Only what files hold can differ. -/
  layout : t.SameLayout t'
  /-- Below the root nothing differs. -/
  node?_eq : ∀ place, root <+: place → t.node? place = t'.node? place

variable {t t' : FileTree} {place : Place}

namespace SameLayout

theorem exists_node (h : t.SameLayout t') {node : FileNode} (hn : t.node? place = some node) :
    ∃ node', t'.node? place = some node' ∧ node'.outline = node.outline := by
  have := h place
  rw [hn, Option.map_some] at this
  exact Option.map_eq_some_iff.1 this.symm

theorem node?_eq_none (h : t.SameLayout t') (hn : t.node? place = none) :
    t'.node? place = none := by
  have := h place
  rw [hn, Option.map_none] at this
  exact Option.map_eq_none_iff.1 this.symm

/-- All but files are the same. -/
theorem node?_eq (h : t.SameLayout t') {node : FileNode} (hn : t.node? place = some node)
    (hf : ∀ bytes, node ≠ .file bytes) : t'.node? place = some node := by
  obtain ⟨node', hn', ho⟩ := h.exists_node hn
  rw [hn']
  cases node with
  | file bytes => exact absurd rfl (hf bytes)
  | directory | link _ | other => cases node' <;> simp_all [FileNode.outline]

theorem symm (h : t.SameLayout t') : t'.SameLayout t := fun place => (h place).symm

/-- **A walk comes to the same place in both trees**, or fails in the same way. -/
theorem walkFrom_outlined (h : t.SameLayout t') (links : Nat) (here : Place)
    (ps : List Path.Name) :
    (t.walkFrom links here ps).map outlined = (t'.walkFrom links here ps).map outlined := by
  fun_induction walkFrom t links here ps with
  | case1 links here node hn =>
    obtain ⟨node', hn', ho⟩ := h.exists_node hn
    rw [walkFrom_nil t' links hn']
    simp only [Except.map, outlined, ho]
  | case2 links here hn | case3 links here p ps hn =>
    rw [walkFrom, h.node?_eq_none hn]
  | case4 links here p ps hd hidle ih =>
    rw [walkFrom_idle t' _ _ (h.node?_eq hd (by simp)) hidle, ih]
  | case5 links here ps hd hidle ih =>
    rw [walkFrom_up t' _ _ (h.node?_eq hd (by simp)), ih]
  | case6 links here p ps hd hidle hup hsize =>
    rw [walkFrom, h.node?_eq hd (by simp)]
    simp only [if_neg hidle, if_neg hup, if_pos hsize]
  | case7 here p ps hd hidle hup hsize target hl =>
    rw [walkFrom, h.node?_eq hd (by simp)]
    simp only [if_neg hidle, if_neg hup, if_neg hsize, h.node?_eq hl (by simp)]
  | case8 here p ps hd hidle hup hsize target hl links ih =>
    have hp : Path.IsName p := ⟨by simpa using hidle, hup, Nat.not_lt.1 hsize⟩
    rw [walkFrom_link t' _ _ (h.node?_eq hd (by simp)) hp (h.node?_eq hl (by simp))]
    exact ih
  | case9 links here p ps hd hidle hup hsize hl ih =>
    have hp : Path.IsName p := ⟨by simpa using hidle, hup, Nat.not_lt.1 hsize⟩
    have hl' : ∀ target, t'.node? (here ++ [p]) ≠ some (.link target) := fun target hn =>
      hl target (h.symm.node?_eq hn (by simp))
    rw [walkFrom_name t' _ _ (h.node?_eq hd (by simp)) hp hl', ih]
  | case10 links here p ps node hd hn =>
    obtain ⟨node', hn', -⟩ := h.exists_node hn
    have hd' : node' ≠ .directory := by
      rintro rfl
      rw [h.symm.node?_eq hn' (by simp), Option.some.injEq] at hn
      exact hd hn.symm
    rw [walkFrom, hn']
    cases node' with
    | directory => exact absurd rfl hd'
    | file _ | link _ | other => rfl

/-- The same for a path from a directory. -/
theorem walk_outlined (h : t.SameLayout t') (home : Place) (path : List UInt8) :
    (t.walk home path).map outlined = (t'.walk home path).map outlined := by
  unfold walk
  split
  · rfl
  split
  · rfl
  exact h.walkFrom_outlined ..

end SameLayout

/-- Two results that are the same without what files hold: the same error, or the same place. -/
theorem map_outlined_eq_cases {x y : Except FileError (Place × FileNode)}
    (h : x.map outlined = y.map outlined) :
    (∃ e, x = .error e ∧ y = .error e) ∨
      ∃ place node node', x = .ok (place, node) ∧ y = .ok (place, node') ∧
        node.outline = node'.outline := by
  rcases x with e | ⟨place, node⟩ <;> rcases y with e' | ⟨place', node'⟩ <;>
    simp_all [Except.map, outlined]

end FileTree

namespace Sandbox

open FileTree

variable {files files' : FileTree}

/-- The files of one layout have the same sandboxes. -/
theorem ofPath_eq (h : files.SameLayout files') (home : Place) (path : String) (maxBytes : Nat) :
    ofPath files home path maxBytes = ofPath files' home path maxBytes := by
  unfold ofPath
  rcases map_outlined_eq_cases (h.walk_outlined home (Utf8.encode path.toList)) with
    ⟨e, hx, hy⟩ | ⟨place, node, node', hx, hy, ho⟩
  · rw [hx, hy]
  · rw [hx, hy]
    cases node <;> cases node' <;> first | rfl | cases ho

/-- **A sandbox answers a request the same whatever the files outside hold**, with the same content
or the same refusal: a path that leads outside is refused before what is there is looked at. -/
theorem resolve_eq {s : Sandbox} (h : files.AlikeBelow s.root files') (path : String) :
    s.resolve files path = s.resolve files' path := by
  unfold resolve
  cases IncludePath.resolve path with
  | error e => rfl
  | ok parts =>
    rw [ok_bind, ok_bind]
    rcases map_outlined_eq_cases
        (h.layout.walkFrom_outlined maxLinks [] (s.root ++ parts.map Utf8.encode)) with
      ⟨e, hx, hy⟩ | ⟨place, node, node', hx, hy, ho⟩
    · rw [hx, hy]
    · rw [hx, hy]
      cases hb : below? s.root place with
      | none => simp only [hb]
      | some inside =>
        have hsame := h.node?_eq place (below?_eq_some_iff.1 hb).1
        rw [node?_of_walkFrom hx, node?_of_walkFrom hy, Option.some.injEq] at hsame
        rw [hsame]

end Sandbox

namespace Engine

variable {files files' : FileTree} {home root : Place} {config : Config} {path : String}

/-- The files of one layout make the same engine. -/
theorem ofConfig_eq (h : files.SameLayout files') (home : Place) (config : Config) :
    ofConfig files home config = ofConfig files' home config := by
  unfold ofConfig
  cases config.sandboxRoot with
  | none => rfl
  | some path => simp only [Sandbox.ofPath_eq h]

/-- **What files outside the sandbox hold has no influence on a render.** Two file trees that have
the same directories, links and names of files, and the same files below the directory that
includes come from, have the same engine, and each render with it ends the same: with the same
output or the same failure, and with the same cache. -/
theorem render_eq_of_alikeBelow (hpath : config.sandboxRoot = some path)
    (hroot : files.walk home path.toList = .ok (root, .directory))
    (h : files.AlikeBelow root files') :
    ∃ e, ofConfig files home config = .ok e ∧ ofConfig files' home config = .ok e ∧
      ∀ cache template params mode,
        e.render files cache template params mode = e.render files' cache template params mode := by
  have he : ofConfig files home config =
      .ok ⟨config, .sandbox ⟨root, config.includeBytes⟩⟩ := by
    rw [ofConfig, hpath]
    simp only [Sandbox.ofPath, hroot]
  refine ⟨_, he, (ofConfig_eq h.layout home config).symm.trans he, ?_⟩
  intro cache template params mode
  have hresolver : Sandbox.resolver ⟨root, config.includeBytes⟩ files =
      Sandbox.resolver ⟨root, config.includeBytes⟩ files' := funext (Sandbox.resolve_eq h)
  simp only [render, IncludeSource.resolver, hresolver]

/-- A link in the sandbox points to a file outside. The file may hold anything. -/
theorem render_eq_of_alikeBelow_behind_link :
    let files (secret : String) : FileTree := ⟨[
      (["r"], .directory), (["r", "l"], .link "../x"),
      (["x"], .file secret.toByteArray)]⟩
    let config : Config := ⟨some "/r", .standard, 100, 1, 0⟩
    let e : Engine := ⟨config, .sandbox ⟨["r"], 100⟩⟩
    config.sandboxRoot = some "/r" ∧
      (files "key").walk [] "/r".toList = .ok (["r"], .directory) ∧
      (files "key").AlikeBelow ["r"] (files "another key") ∧
      e.render (files "key") none "[% include 'l' %]" .empty .html =
        e.render (files "another key") none "[% include 'l' %]" .empty .html := by
  intro files config e
  have hroot : (files "key").walk [] "/r".toList = .ok (["r"], .directory) := by cbv
  have hnode : ∀ place : Place, place ≠ ["x"] →
      (files "key").node? place = (files "another key").node? place := by
    intro place hne
    have hx : (place == (["x"] : Place)) = false := beq_false_of_ne hne
    simp only [FileTree.node?, files, List.lookup, hx]
  have h : (files "key").AlikeBelow ["r"] (files "another key") := by
    refine ⟨fun place => ?_, fun place hp => hnode place ?_⟩
    · by_cases hx : place = ["x"]
      · subst hx
        rfl
      · rw [hnode place hx]
    · rintro rfl
      exact absurd hp (by decide)
  have hconfig : config.sandboxRoot = some "/r" := rfl
  refine ⟨hconfig, hroot, h, ?_⟩
  obtain ⟨e', he, -, heq⟩ := render_eq_of_alikeBelow hconfig hroot h
  have hsame : ofConfig (files "key") [] config = .ok e := by cbv
  rw [hsame, Except.ok.injEq] at he
  rw [he]
  exact heq ..

end Engine

end Stencil
