import Stencil.FileTree

/-!
# Where paths lead

`Leads` says, one step at a time, where a path leads that is followed through all the links on the
way, and how many these are. A walk comes to where the path leads, unless there are more links than
it follows (`walkFrom_eq_ok_iff`). Seen from a canonical place, one whose own path has no link in
it, a path leads to a canonical place (`Leads.isCanonical`).
-/

namespace Stencil

/-- A piece of a path that can be the name of something in a directory. -/
structure Path.IsName (p : Path.Name) : Prop where
  /-- It is neither empty nor `.`. -/
  isIdle_eq : Path.isIdle p = false
  /-- It is not `..`. -/
  ne_up : p ≠ Path.up
  /-- It is not too long. -/
  length_le : p.length ≤ FileTree.maxName

namespace FileTree

/-! ### Following a path -/

/-- From the place `here` these pieces of a path lead to `place`, where `node` stands, through
`links` links. -/
inductive Leads (t : FileTree) : (links : Nat) → (here : Place) → List Path.Name → (place : Place) →
    FileNode → Prop where
  /-- At the end of the path. -/
  | arrive {place : Place} {node : FileNode} (h : t.node? place = some node) :
      Leads t 0 place [] place node
  /-- A piece that names nothing of its own stays in the directory. -/
  | stay {links : Nat} {here place : Place} {p : Path.Name} {ps : List Path.Name} {node : FileNode}
      (hd : t.node? here = some .directory) (hp : Path.isIdle p = true)
      (h : Leads t links here ps place node) : Leads t links here (p :: ps) place node
  /-- `..` goes to the directory above; above the root there is the root. -/
  | climb {links : Nat} {here place : Place} {ps : List Path.Name} {node : FileNode}
      (hd : t.node? here = some .directory) (h : Leads t links here.dropLast ps place node) :
      Leads t links here (Path.up :: ps) place node
  /-- A name goes to what stands in the directory under it, if that is no link. -/
  | enter {links : Nat} {here place : Place} {p : Path.Name} {ps : List Path.Name}
      {node : FileNode} (hd : t.node? here = some .directory) (hp : Path.IsName p)
      (hn : ∀ target, t.node? (here ++ [p]) ≠ some (.link target))
      (h : Leads t links (here ++ [p]) ps place node) : Leads t links here (p :: ps) place node
  /-- The name of a link goes where the link points, seen from the directory that it stands in. -/
  | follow {links : Nat} {here place : Place} {p : Path.Name} {ps : List Path.Name}
      {node : FileNode} {target : List UInt8} (hd : t.node? here = some .directory)
      (hp : Path.IsName p) (hl : t.node? (here ++ [p]) = some (.link target))
      (h : Leads t links (if Path.isAbsolute target then [] else here)
        (Path.pieces target ++ ps) place node) :
      Leads t (links + 1) here (p :: ps) place node

section

variable {t : FileTree} {links : Nat} {here place : Place} {p : Path.Name} {ps : List Path.Name}
  {node : FileNode}

/-- Something stands where a path begins. -/
theorem Leads.exists_node (h : t.Leads links here ps place node) :
    ∃ first, t.node? here = some first := by
  cases h with
  | arrive h => exact ⟨_, h⟩
  | stay hd | climb hd | enter hd | follow hd => exact ⟨_, hd⟩

/-- Only a directory can be left by a path. -/
theorem Leads.node?_eq_directory (h : t.Leads links here (p :: ps) place node) :
    t.node? here = some .directory := by
  cases h with
  | stay hd | climb hd | enter hd | follow hd => exact hd

/-- What a path leads to is what stands there. -/
theorem Leads.node?_eq (h : t.Leads links here ps place node) : t.node? place = some node := by
  induction h with
  | arrive h => exact h
  | stay _ _ _ ih | climb _ _ ih | enter _ _ _ _ ih | follow _ _ _ _ ih => exact ih

/-- A name of something that is no link leads there. -/
theorem leads_name_iff {next : FileNode} (hd : t.node? here = some .directory)
    (hp : Path.IsName p) (hn : t.node? (here ++ [p]) = some next)
    (hl : ∀ target, next ≠ .link target) :
    t.Leads links here (p :: ps) place node ↔ t.Leads links (here ++ [p]) ps place node := by
  have hl' : ∀ target, t.node? (here ++ [p]) ≠ some (.link target) := fun target h => by
    rw [hn, Option.some.injEq] at h
    exact hl target h
  constructor
  · intro h
    cases h with
    | stay _ hidle _ =>
      rw [hp.isIdle_eq] at hidle
      cases hidle
    | climb _ _ => exact absurd rfl hp.ne_up
    | enter _ _ _ h => exact h
    | follow _ _ hlink _ => exact absurd hlink (hl' _)
  · exact .enter hd hp hl'

end

/-! ### Walks -/

section

variable (t : FileTree) (links : Nat) {here : Place} {p : Path.Name} (ps : List Path.Name)

theorem walkFrom_nil {node : FileNode} (h : t.node? here = some node) :
    t.walkFrom links here [] = .ok (here, node) := by
  rw [walkFrom, h]

theorem walkFrom_idle (hd : t.node? here = some .directory) (hp : Path.isIdle p = true) :
    t.walkFrom links here (p :: ps) = t.walkFrom links here ps := by
  rw [walkFrom, hd]
  simp only [if_pos hp]

theorem walkFrom_up (hd : t.node? here = some .directory) :
    t.walkFrom links here (Path.up :: ps) = t.walkFrom links here.dropLast ps := by
  rw [walkFrom, hd]
  have hup : Path.isIdle (Path.up : Path.Name) = false := by decide
  simp only [hup, Bool.false_eq_true, if_false, if_true]

theorem walkFrom_name (hd : t.node? here = some .directory) (hp : Path.IsName p)
    (hn : ∀ target, t.node? (here ++ [p]) ≠ some (.link target)) :
    t.walkFrom links here (p :: ps) = t.walkFrom links (here ++ [p]) ps := by
  obtain ⟨hidle, hup, hlength⟩ := hp
  rw [walkFrom, hd]
  simp only [hidle, if_neg hup, if_neg (Nat.not_lt.2 hlength), Bool.false_eq_true, if_false]

theorem walkFrom_link {target : List UInt8} (hd : t.node? here = some .directory)
    (hp : Path.IsName p) (hl : t.node? (here ++ [p]) = some (.link target)) :
    t.walkFrom (links + 1) here (p :: ps) =
      t.walkFrom links (if Path.isAbsolute target then [] else here)
        (Path.pieces target ++ ps) := by
  obtain ⟨hidle, hup, hlength⟩ := hp
  rw [walkFrom, hd]
  simp only [hidle, if_neg hup, if_neg (Nat.not_lt.2 hlength), Bool.false_eq_true, if_false, hl]

end

variable {t : FileTree} {links : Nat} {here place : Place} {ps : List Path.Name} {node : FileNode}

theorem walkFrom_of_leads (h : t.Leads links here ps place node) :
    ∀ {most}, links ≤ most → t.walkFrom most here ps = .ok (place, node) := by
  induction h with
  | arrive h => exact fun _ => walkFrom_nil t _ h
  | stay hd hp _ ih => exact fun hm => (walkFrom_idle t _ _ hd hp).trans (ih hm)
  | climb hd _ ih => exact fun hm => (walkFrom_up t _ _ hd).trans (ih hm)
  | enter hd hp hn _ ih => exact fun hm => (walkFrom_name t _ _ hd hp hn).trans (ih hm)
  | follow hd hp hl _ ih =>
    intro most hm
    obtain ⟨most, rfl⟩ : ∃ n, most = n + 1 := ⟨most - 1, by omega⟩
    exact (walkFrom_link t _ _ hd hp hl).trans (ih (by omega))

theorem leads_of_walkFrom {most : Nat} (h : t.walkFrom most here ps = .ok (place, node)) :
    ∃ links ≤ most, t.Leads links here ps place node := by
  fun_induction walkFrom t most here ps with
  | case1 most here first hn =>
    cases h
    exact ⟨0, Nat.zero_le _, .arrive hn⟩
  | case2 => cases h
  | case3 => cases h
  | case4 most here p ps hd hidle ih =>
    obtain ⟨links, hle, hl⟩ := ih h
    exact ⟨links, hle, .stay hd hidle hl⟩
  | case5 most here ps hd hidle ih =>
    obtain ⟨links, hle, hl⟩ := ih h
    exact ⟨links, hle, .climb hd hl⟩
  | case6 => cases h
  | case7 => cases h
  | case8 here p ps hd hidle hup hlength target hlink most ih =>
    obtain ⟨links, hle, hl⟩ := ih h
    exact ⟨links + 1, Nat.succ_le_succ hle,
      .follow hd ⟨by simpa using hidle, hup, Nat.not_lt.1 hlength⟩ hlink hl⟩
  | case9 most here p ps hd hidle hup hlength hlink ih =>
    obtain ⟨links, hle, hl⟩ := ih h
    exact ⟨links, hle, .enter hd ⟨by simpa using hidle, hup, Nat.not_lt.1 hlength⟩ hlink hl⟩
  | case10 => cases h

/-- **A walk comes to where its path leads**, unless that is through more links than it follows. -/
theorem walkFrom_eq_ok_iff {most : Nat} :
    t.walkFrom most here ps = .ok (place, node) ↔
      ∃ links ≤ most, t.Leads links here ps place node :=
  ⟨leads_of_walkFrom, fun ⟨_, hle, h⟩ => walkFrom_of_leads h hle⟩

/-- What a walk comes to is what stands there. -/
theorem node?_of_walkFrom {most : Nat} (h : t.walkFrom most here ps = .ok (place, node)) :
    t.node? place = some node := by
  obtain ⟨links, -, hl⟩ := leads_of_walkFrom h
  exact hl.node?_eq

/-- A path leads to one place only. -/
theorem Leads.unique {links' : Nat} {place' : Place} {node' : FileNode}
    (h : t.Leads links here ps place node) (h' : t.Leads links' here ps place' node') :
    place = place' ∧ node = node' := by
  have hwalk := walkFrom_of_leads h (Nat.le_max_left links links')
  rw [walkFrom_of_leads h' (Nat.le_max_right links links')] at hwalk
  cases hwalk
  exact ⟨rfl, rfl⟩

/-! ### Canonical places -/

/-- The path of a place is canonical if every name but the last is that of a directory, and the last
is that of something other than a link. -/
inductive IsCanonical (t : FileTree) : Place → Prop where
  /-- The root. -/
  | root : IsCanonical t []
  /-- Something in a directory. -/
  | child {above : Place} {p : Path.Name} {node : FileNode} (ha : IsCanonical t above)
      (hd : t.node? above = some .directory) (hp : Path.IsName p)
      (hn : t.node? (above ++ [p]) = some node) (hl : ∀ target, node ≠ .link target) :
      IsCanonical t (above ++ [p])

theorem IsCanonical.dropLast (h : t.IsCanonical place) : t.IsCanonical place.dropLast := by
  cases h with
  | root => exact .root
  | child ha => rwa [List.dropLast_concat]

/-- **From a canonical place a path leads to a canonical place.** -/
theorem Leads.isCanonical (h : t.Leads links here ps place node) (hc : t.IsCanonical here) :
    t.IsCanonical place := by
  induction h with
  | arrive _ => exact hc
  | stay _ _ _ ih => exact ih hc
  | climb _ _ ih => exact ih hc.dropLast
  | enter hd hp hn h ih =>
    obtain ⟨next, hnext⟩ := h.exists_node
    exact ih (.child hc hd hp hnext fun target heq => hn target (heq ▸ hnext))
  | follow _ _ _ _ ih =>
    refine ih ?_
    split
    · exact .root
    · exact hc

/-- A walk from a canonical place ends at one. -/
theorem isCanonical_of_walk {home : Place} {path : List UInt8} (hhome : t.IsCanonical home)
    (h : t.walk home path = .ok (place, node)) : t.IsCanonical place := by
  unfold walk at h
  split at h
  · cases h
  split at h
  · cases h
  obtain ⟨links, -, hl⟩ := leads_of_walkFrom h
  refine hl.isCanonical ?_
  split
  · exact .root
  · exact hhome

/-- A path through a canonical place leads where the rest of it leads from there. -/
theorem leads_append_iff {root : Place} (hc : t.IsCanonical root) :
    t.Leads links [] (root ++ ps) place node ↔ t.Leads links root ps place node := by
  induction hc generalizing ps with
  | root => rfl
  | child ha hd hp hn hl ih =>
    rw [List.append_assoc, ih, List.singleton_append]
    exact leads_name_iff hd hp hn hl

/-- From `here` these pieces of a path lead to `place`, where `node` stands. A path with more than
`maxLinks` links on the way is not followed to its end: it leads nowhere. -/
def Reaches (t : FileTree) (here : Place) (pieces : List Path.Name) (place : Place)
    (node : FileNode) : Prop :=
  ∃ links ≤ maxLinks, t.Leads links here pieces place node

end FileTree

end Stencil
