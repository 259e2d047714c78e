import Mathlib
import Stencil.Include.Sandbox
import Stencil.Proofs.Except
import Stencil.Proofs.FileTree
import Stencil.Proofs.Path

/-!
# What a sandbox serves

A sandbox serves the files below its root and no others, whatever links there are: a request is
answered exactly if its path, in normal form and followed from the root through all links, leads to
a regular file that has its canonical place below the root, is not too long and is UTF-8; and then
the answer is the content of this file (`resolve_contained`).
-/

namespace Stencil

theorem fromUTF8?_eq_some_iff {bytes : ByteArray} {content : String} :
    String.fromUTF8? bytes = some content ↔ content.toByteArray = bytes := by
  rw [String.fromUTF8?]
  split
  · next h =>
    rw [Option.some.injEq, ← String.toByteArray_inj]
    exact eq_comm
  · next h =>
    constructor
    · intro hn
      cases hn
    · rintro rfl
      exact absurd content.isValidUTF8 h

namespace Sandbox

variable {s : Sandbox} {files : FileTree} {path : String} {inside place : Place}
  {node : FileNode} {bytes : ByteArray} {r : Resolved}

/-! ### Keys -/

/-- A key keeps every character but the backslash. -/
theorem map_keyChar {cs : List Char} (h : '\\' ∉ cs) : cs.map keyChar = cs := by
  conv_rhs => rw [← List.map_id cs]
  refine List.map_congr_left fun c hc => ?_
  have hne : c ≠ '\\' := by
    rintro rfl
    exact h hc
  rw [keyChar, if_neg hne]
  rfl

/-! ### Reading a file -/

/-- A file that is not too long is read to its end, also under the greatest limit there is. -/
theorem read_eq_ok (hmax : s.maxBytes < UInt64.size) (h : bytes.size ≤ s.maxBytes) :
    s.read bytes = .ok bytes := by
  have hall : bytes.extract 0 s.readLimit = bytes := by
    have hle : bytes.size ≤ s.readLimit := by
      unfold readLimit
      omega
    rw [← Nat.max_eq_left hle, ByteArray.extract_zero_max_size]
  rw [read]
  simp only [hall, if_neg (Nat.not_lt.2 h)]

theorem serve_eq_ok_iff (hmax : s.maxBytes < UInt64.size) :
    s.serve inside node = .ok r ↔
      node = .file r.content.toByteArray ∧ r.content.toByteArray.size ≤ s.maxBytes ∧
        r.key = keyOf inside := by
  obtain ⟨key, content⟩ := r
  cases node with
  | file bytes =>
    by_cases hsize : bytes.size ≤ s.maxBytes
    · rw [serve, if_neg (Nat.not_lt.2 hsize), read_eq_ok hmax hsize, ok_bind]
      split
      · next found hfound =>
        rw [fromUTF8?_eq_some_iff] at hfound
        subst hfound
        simp only [pure_eq_ok, Except.ok.injEq, Resolved.mk.injEq, FileNode.file.injEq,
          String.toByteArray_inj]
        constructor
        · rintro ⟨rfl, rfl⟩
          exact ⟨rfl, hsize, rfl⟩
        · rintro ⟨rfl, -, rfl⟩
          exact ⟨rfl, rfl⟩
      · next hnone =>
        simp only [reduceCtorEq, FileNode.file.injEq, false_iff, not_and]
        rintro rfl
        rw [fromUTF8?_eq_some_iff.2 rfl] at hnone
        cases hnone
    · rw [serve, if_pos (Nat.not_le.1 hsize)]
      simp only [reduceCtorEq, FileNode.file.injEq, false_iff, not_and]
      rintro rfl hle
      exact absurd hle hsize
  | directory | link target | other => simp [serve]

/-! ### Following a path -/

theorem below?_eq_some_iff {root : Place} :
    below? root place = some inside ↔ root <+: place ∧ inside = place.drop root.length := by
  rw [below?]
  split
  · next h => simp [List.isPrefixOf_iff_prefix.1 h, eq_comm]
  · next h =>
    have hn : ¬ root <+: place := fun hp => h (List.isPrefixOf_iff_prefix.2 hp)
    simp [hn]

/-- Below the root of a sandbox, `path` leads to a regular file at `place` that may be served, and
`bytes` are its content. -/
structure Offers (s : Sandbox) (files : FileTree) (path : String) (place : Place)
    (bytes : ByteArray) : Prop where
  /-- The normal form of the path leads there from the root. -/
  reaches : ∃ normal, IncludePath.normalize path = .ok normal ∧
    files.Reaches s.root (Path.pieces (Utf8.encode normal.toList)) place (.file bytes)
  /-- The place lies below the root, name by name. -/
  isBelow : s.root <+: place
  /-- The file is not too long. -/
  size_le : bytes.size ≤ s.maxBytes
  /-- Its content is UTF-8. -/
  isValid : bytes.IsValidUTF8

theorem reaches_iff {parts : List Path.Name} (hroot : files.IsCanonical s.root) :
    files.walkFrom FileTree.maxLinks [] (s.root ++ parts) = .ok (place, node) ↔
      files.Reaches s.root parts place node := by
  rw [FileTree.walkFrom_eq_ok_iff, FileTree.Reaches]
  simp only [FileTree.leads_append_iff hroot]

/-- **A request is answered exactly by a file that the sandbox offers for its path.** -/
theorem resolve_eq_ok_iff (hroot : files.IsCanonical s.root) (hmax : s.maxBytes < UInt64.size) :
    s.resolve files path = .ok r ↔
      ∃ place, s.Offers files path place r.content.toByteArray ∧
        r.key = keyOf (place.drop s.root.length) := by
  rw [resolve, bind_eq_ok_iff]
  constructor
  · rintro ⟨parts, hparts, h⟩
    split at h
    · cases h
    · next place node hwalk =>
      split at h
      · cases h
      · next inside hbelow =>
        rw [mapError_eq_ok_iff, serve_eq_ok_iff hmax] at h
        obtain ⟨rfl, hsize, hkey⟩ := h
        obtain ⟨hunder, rfl⟩ := below?_eq_some_iff.1 hbelow
        refine ⟨place, ⟨⟨_, IncludePath.normalize_eq_ok_iff.2 ⟨parts, hparts, rfl⟩, ?_⟩, hunder,
          hsize, r.content.isValidUTF8⟩, hkey⟩
        rw [IncludePath.pieces_encode_of_resolve hparts]
        exact (reaches_iff hroot).1 hwalk
  · rintro ⟨place, ⟨⟨normal, hnormal, hreaches⟩, hunder, hsize, -⟩, hkey⟩
    obtain ⟨parts, hparts, rfl⟩ := IncludePath.normalize_eq_ok_iff.1 hnormal
    rw [IncludePath.pieces_encode_of_resolve hparts] at hreaches
    refine ⟨parts, hparts, ?_⟩
    rw [(reaches_iff hroot).2 hreaches]
    simp only [below?_eq_some_iff.2 ⟨hunder, rfl⟩]
    rw [mapError_eq_ok_iff, serve_eq_ok_iff hmax]
    exact ⟨rfl, hsize, hkey⟩

/-- The place of a file that is offered is canonical, and it is not that of the root itself. -/
theorem Offers.canonical (h : s.Offers files path place bytes) (hroot : files.IsCanonical s.root) :
    files.IsCanonical place ∧ s.root ≠ place := by
  obtain ⟨normal, hnormal, links, -, hl⟩ := h.reaches
  refine ⟨hl.isCanonical hroot, ?_⟩
  rintro rfl
  obtain ⟨p, ps, hps⟩ := List.exists_cons_of_ne_nil (Path.pieces_ne_nil (Utf8.encode normal.toList))
  rw [hps] at hl
  have hnode := hl.node?_eq
  rw [hl.node?_eq_directory, Option.some.injEq] at hnode
  cases hnode

/-- A sandbox that is made for a path has a canonical root. -/
theorem isCanonical_of_ofPath {home : Place} {maxBytes : Nat} (hhome : files.IsCanonical home)
    (h : ofPath files home path maxBytes = .ok s) : files.IsCanonical s.root := by
  unfold ofPath at h
  split at h
  · next hwalk =>
    cases h
    exact FileTree.isCanonical_of_walk hhome hwalk
  · cases h
  · cases h

/-- **What is served is a file below the root, and every such file is served.** -/
theorem resolve_contained (hroot : files.IsCanonical s.root) (hmax : s.maxBytes < UInt64.size)
    (path : String) :
    (∀ r, s.resolve files path = .ok r →
      ∃ place bytes, s.Offers files path place bytes ∧ files.IsCanonical place ∧ s.root ≠ place ∧
        r.content.toByteArray = bytes) ∧
    ∀ place bytes, s.Offers files path place bytes →
      ∃ r, s.resolve files path = .ok r ∧ r.content.toByteArray = bytes := by
  constructor
  · intro r h
    obtain ⟨place, hoffers, -⟩ := (resolve_eq_ok_iff hroot hmax).1 h
    obtain ⟨hcanonical, hne⟩ := hoffers.canonical hroot
    exact ⟨place, _, hoffers, hcanonical, hne, rfl⟩
  · intro place bytes hoffers
    have hcontent : (String.fromUTF8 bytes hoffers.isValid).toByteArray = bytes := rfl
    refine ⟨⟨keyOf (place.drop s.root.length), String.fromUTF8 bytes hoffers.isValid⟩,
      (resolve_eq_ok_iff hroot hmax).2 ⟨place, ?_, rfl⟩, hcontent⟩
    exact hoffers

/-- A link that leaves the root, to another link that comes back. -/
theorem resolve_contained_through_links :
    let s : Sandbox := ⟨["r"], 2⟩
    let files : FileTree := ⟨[
      (["r"], .directory), (["r", "i"], .link "../x/l"),
      (["x"], .directory), (["x", "l"], .link "/r/a"),
      (["r", "a"], .file "hi".toByteArray)]⟩
    files.IsCanonical s.root ∧ s.maxBytes < UInt64.size ∧
      s.resolve files "./i" = .ok ⟨"a", "hi"⟩ ∧
      ∃ place bytes, s.Offers files "./i" place bytes ∧ files.IsCanonical place ∧
        s.root ≠ place ∧ "hi".toByteArray = bytes := by
  intro s files
  have hroot : files.IsCanonical s.root :=
    .child .root rfl ⟨rfl, by decide, by decide⟩ rfl fun _ h => nomatch h
  have hmax : s.maxBytes < UInt64.size := by decide
  have h : s.resolve files "./i" = .ok ⟨"a", "hi"⟩ := by cbv
  exact ⟨hroot, hmax, h, (resolve_contained hroot hmax "./i").1 _ h⟩

end Sandbox

end Stencil
