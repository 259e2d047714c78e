import Stencil.Proofs.Include.Memory
import Stencil.Proofs.Include.Sandbox

/-!
# A sandbox and a copy of it in memory

Includes come from a directory or from memory. If all the files below the root of a sandbox are
kept in memory too, each under its path from the root, then both answer a request alike: with the
same key and the same content, or with the same error. They differ in one case only. A path that
leads to a directory is refused as that by the sandbox, and in memory there is nothing
(`resolve_eq_resolver`).

This holds of a tree of directories and regular files in which no name has a backslash. With a link
one file could have two paths, and a backslash in a name would become a slash in the key. Names need
not be text; a file under one that is not has no path that could be asked for.
-/

namespace Stencil

/-! ### Contents in memory -/

namespace MemoryIncludes

variable {key content : String} {files : List (String × String)}

/-- Where every path is its own key and has one content only, this is what is found under it,
whatever the order in which the contents were put in. -/
theorem get?_ofList_eq_some_iff (hkey : ∀ file ∈ files, keyOf file.1 = file.1)
    (hone : ∀ path c c', (path, c) ∈ files → (path, c') ∈ files → c = c') :
    (ofList files).get? key = some content ↔ (key, content) ∈ files := by
  constructor
  · intro h
    obtain ⟨path, hmem, hpath⟩ := exists_mem_of_get?_ofList h
    rw [hkey _ hmem] at hpath
    exact hpath ▸ hmem
  · intro hmem
    obtain ⟨c, hc⟩ := Option.ne_none_iff_exists'.1 (get?_ofList_ne_none hmem)
    rw [hkey _ hmem] at hc
    obtain ⟨path, hmem', hpath⟩ := exists_mem_of_get?_ofList hc
    rw [hkey _ hmem'] at hpath
    subst hpath
    rw [hc, hone path c content hmem' hmem]

end MemoryIncludes

/-! ### Paths of names -/

namespace IncludePath

/-- Names joined to a path are the normal form of this, if it has one. -/
theorem resolve_join {ps parts : List Component} (hne : ps ≠ []) (hslash : ∀ p ∈ ps, '/' ∉ p)
    (hname : ∀ p ∈ ps, Path.isIdle p = false ∧ p ≠ Path.up)
    (h : resolve (String.ofList (Path.join ps)) = .ok parts) : parts = ps := by
  have hcomponents := components_join hne hslash fun p hp => (hname p hp).1
  have hclimb : climb [] ps = some ps := climb_names fun p hp => (hname p hp).2
  unfold resolve at h
  simp only [String.toList_ofList, hcomponents, hclimb] at h
  split at h
  · cases h
  · cases h
    rfl

end IncludePath

namespace MemoryIncludes

/-- Names joined to a path are kept under it as it is. -/
theorem keyOf_join {ps : List IncludePath.Component} (hne : ps ≠ []) (hslash : ∀ p ∈ ps, '/' ∉ p)
    (hname : ∀ p ∈ ps, Path.isIdle p = false ∧ p ≠ Path.up) :
    keyOf (String.ofList (Path.join ps)) = String.ofList (Path.join ps) := by
  rw [keyOf, IncludePath.normalize]
  cases h : IncludePath.resolve (String.ofList (Path.join ps)) with
  | error e => rfl
  | ok parts =>
    obtain rfl := IncludePath.resolve_join hne hslash hname h
    rfl

end MemoryIncludes

namespace Sandbox

variable {s : Sandbox} {files : FileTree}

/-! ### Plain trees -/

/-- Below the root there are only directories and regular files, and the contents of these may be
served. Names are such as a path can have, and without backslashes. -/
structure IsPlain (s : Sandbox) (files : FileTree) : Prop where
  /-- The root is a directory. -/
  root : files.node? s.root = some .directory
  /-- What is below the root is in a directory. -/
  above : ∀ {inside p node}, files.node? (s.root ++ (inside ++ [p])) = some node →
    files.node? (s.root ++ inside) = some .directory
  /-- It is a directory, or a regular file whose content is UTF-8 and not too long. -/
  kind : ∀ {inside p node}, files.node? (s.root ++ (inside ++ [p])) = some node →
    node = .directory ∨
      ∃ content : String, node = .file content.toByteArray ∧
        content.toByteArray.size ≤ s.maxBytes
  /-- Its name can stand in a path. -/
  isName : ∀ {inside p node}, files.node? (s.root ++ (inside ++ [p])) = some node → Path.IsName p
  /-- Its name has neither slashes nor backslashes. -/
  noSlash : ∀ {inside p node}, files.node? (s.root ++ (inside ++ [p])) = some node →
    0x2F ∉ p ∧ 0x5C ∉ p

namespace IsPlain

variable {inside ps : Place} {p : Path.Name} {node : FileNode}

/-- On the way to something below the root there are directories. -/
theorem directory (h : s.IsPlain files)
    (hn : files.node? (s.root ++ (inside ++ p :: ps)) = some node) :
    files.node? (s.root ++ inside) = some .directory := by
  induction ps generalizing inside p with
  | nil => exact h.above hn
  | cons q qs ih =>
    rw [List.append_cons] at hn
    exact h.above (ih hn)

/-- What is on the way to something below the root has a name. -/
theorem exists_node (h : s.IsPlain files)
    (hn : files.node? (s.root ++ (inside ++ p :: ps)) = some node) :
    ∃ next, files.node? (s.root ++ (inside ++ [p])) = some next := by
  cases ps with
  | nil => exact ⟨node, hn⟩
  | cons q qs =>
    rw [List.append_cons] at hn
    exact ⟨_, h.directory hn⟩

theorem not_link (h : s.IsPlain files) (target : List UInt8) :
    files.node? (s.root ++ (inside ++ [p])) ≠ some (.link target) := by
  intro hn
  obtain heq | ⟨content, heq, -⟩ := h.kind hn
  · cases heq
  · cases heq

/-- Every name on the way to something below the root can stand in a path. -/
theorem forall_names (h : s.IsPlain files) (hn : files.node? (s.root ++ inside) = some node) :
    ∀ p ∈ inside, Path.IsName p ∧ 0x2F ∉ p ∧ 0x5C ∉ p := by
  intro p hp
  obtain ⟨before, after, rfl⟩ := List.append_of_mem hp
  obtain ⟨next, hnext⟩ := h.exists_node hn
  exact ⟨h.isName hnext, h.noSlash hnext⟩

/-- The same of names that are text. -/
theorem forall_texts (h : s.IsPlain files) {texts : List (List Char)}
    (hn : files.node? (s.root ++ texts.map Utf8.encode) = some node) :
    ∀ p ∈ texts, (Path.isIdle p = false ∧ p ≠ Path.up) ∧ '/' ∉ p ∧ '\\' ∉ p := by
  intro p hp
  obtain ⟨⟨hidle, hup, -⟩, hslash, hback⟩ := h.forall_names hn _ (List.mem_map_of_mem hp)
  refine ⟨⟨Path.isIdle_encode p ▸ hidle, fun heq => hup (Path.encode_eq_up_iff.2 heq)⟩,
    fun hc => hslash (Path.slash_mem_encode_iff.2 hc), fun hc => hback ?_⟩
  exact (Utf8.ascii_mem_encode_iff (n := 0x5C) (by decide)).2 hc

/-- **Below the root a path of names leads to the place that has this path.** -/
theorem leads_iff (h : s.IsPlain files) {links : Nat} {place : Place}
    (hps : ∀ p ∈ ps, Path.isIdle p = false ∧ p ≠ Path.up) :
    files.Leads links (s.root ++ inside) ps place node ↔
      links = 0 ∧ place = s.root ++ (inside ++ ps) ∧ files.node? place = some node := by
  induction ps generalizing inside with
  | nil =>
    rw [List.append_nil]
    constructor
    · intro hl
      cases hl with
      | arrive hn => exact ⟨rfl, rfl, hn⟩
    · rintro ⟨rfl, rfl, hn⟩
      exact .arrive hn
  | cons p ps ih =>
    obtain ⟨⟨hidle, hup⟩, hrest⟩ := List.forall_mem_cons.1 hps
    have hstep := @ih (inside ++ [p]) hrest
    rw [List.append_assoc, List.singleton_append] at hstep
    rw [← hstep]
    constructor
    · intro hl
      cases hl with
      | stay _ hp _ =>
        rw [hidle] at hp
        cases hp
      | climb _ _ => exact absurd rfl hup
      | enter _ _ _ hl => rwa [List.append_assoc] at hl
      | follow _ _ hlink _ =>
        rw [List.append_assoc] at hlink
        exact absurd hlink (h.not_link _)
    · intro hl
      have hn := (hstep.1 hl).2.1 ▸ hl.node?_eq
      obtain ⟨next, hnext⟩ := h.exists_node hn
      refine .enter (h.directory hn) (h.isName hnext) (fun target => ?_) ?_
      · rw [List.append_assoc]
        exact h.not_link target
      · rwa [List.append_assoc]

theorem reaches_iff (h : s.IsPlain files) {place : Place}
    (hps : ∀ p ∈ ps, Path.isIdle p = false ∧ p ≠ Path.up) :
    files.Reaches s.root ps place node ↔
      place = s.root ++ ps ∧ files.node? place = some node := by
  have hleads := fun links => @leads_iff s files [] ps node h links place hps
  simp only [List.append_nil, List.nil_append] at hleads
  simp only [FileTree.Reaches, hleads]
  constructor
  · rintro ⟨links, -, -, hplace, hn⟩
    exact ⟨hplace, hn⟩
  · rintro ⟨hplace, hn⟩
    exact ⟨0, Nat.zero_le _, rfl, hplace, hn⟩

/-- Below the root there is nothing at a place, or a directory, or a file that may be served. -/
theorem node?_cases (h : s.IsPlain files) (hne : inside ≠ []) :
    files.node? (s.root ++ inside) = none ∨
      files.node? (s.root ++ inside) = some .directory ∨
      ∃ content : String, files.node? (s.root ++ inside) = some (.file content.toByteArray) ∧
        content.toByteArray.size ≤ s.maxBytes := by
  obtain hnil | ⟨above, p, rfl⟩ := List.eq_nil_or_concat' inside
  · exact absurd hnil hne
  cases hn : files.node? (s.root ++ (above ++ [p])) with
  | none => exact .inl rfl
  | some node =>
    obtain rfl | ⟨content, rfl, hsize⟩ := h.kind hn
    · exact .inr (.inl rfl)
    · exact .inr (.inr ⟨content, rfl, hsize⟩)

/-- A file is not the root. -/
theorem ne_nil (h : s.IsPlain files) {bytes : ByteArray}
    (hn : files.node? (s.root ++ inside) = some (.file bytes)) : inside ≠ [] := by
  rintro rfl
  rw [List.append_nil, h.root] at hn
  cases hn

/-- The same of a place whose names are text. -/
theorem texts_ne_nil (h : s.IsPlain files) {texts : List (List Char)} {bytes : ByteArray}
    (hn : files.node? (s.root ++ texts.map Utf8.encode) = some (.file bytes)) : texts ≠ [] :=
  fun hnil => h.ne_nil hn (List.map_eq_nil_iff.2 hnil)

theorem size_le (h : s.IsPlain files) {bytes : ByteArray}
    (hn : files.node? (s.root ++ inside) = some (.file bytes)) : bytes.size ≤ s.maxBytes := by
  obtain hnone | hdirectory | ⟨content, hfile, hsize⟩ := h.node?_cases (h.ne_nil hn)
  · rw [hn] at hnone
    cases hnone
  · rw [hn] at hdirectory
    cases hdirectory
  · rw [hn] at hfile
    cases hfile
    exact hsize

end IsPlain

/-! ### What the sandbox answers -/

variable {path : String} {parts : List IncludePath.Component} {content : String}

/-- The path of an include leads to the place that it names. -/
theorem IsPlain.reaches_parts_iff (h : s.IsPlain files)
    (hparts : IncludePath.resolve path = .ok parts) {place : Place} {node : FileNode} :
    files.Reaches s.root (parts.map Utf8.encode) place node ↔
      place = s.root ++ parts.map Utf8.encode ∧ files.node? place = some node := by
  refine h.reaches_iff fun p hp => ?_
  obtain ⟨q, hq, rfl⟩ := List.mem_map.1 hp
  obtain ⟨-, hidle, hup⟩ := (IncludePath.parts_of_resolve hparts).2 q hq
  exact ⟨(Path.isIdle_encode q).trans hidle, mt Path.encode_eq_up_iff.1 hup⟩

theorem keyOf_eq {texts : List (List Char)} (h : ∀ p ∈ texts, '\\' ∉ p) :
    keyOf (texts.map Utf8.encode) = String.ofList (Path.join texts) := by
  rw [keyOf, Path.join_map_encode, Utf8.read_encode, map_keyChar (Path.notMem_join (by decide) h)]

theorem below?_append (root inside : Place) : below? root (root ++ inside) = some inside :=
  below?_eq_some_iff.2 ⟨List.prefix_append root inside, List.drop_left.symm⟩

/-- In a plain tree the sandbox serves what stands at the place that a path names. -/
theorem resolve_of_isPlain (hroot : files.IsCanonical s.root) (h : s.IsPlain files)
    (hparts : IncludePath.resolve path = .ok parts) :
    s.resolve files path =
      match files.node? (s.root ++ parts.map Utf8.encode) with
      | none => .error ⟨.notFound, path⟩
      | some node => (s.serve (parts.map Utf8.encode) node).mapError (⟨·, path⟩) := by
  have hwalk : ∀ place node, files.walkFrom FileTree.maxLinks [] (s.root ++ parts.map Utf8.encode) =
      .ok (place, node) ↔ place = s.root ++ parts.map Utf8.encode ∧ files.node? place = some node :=
    fun place node => (reaches_iff hroot).trans (h.reaches_parts_iff hparts)
  rw [resolve, hparts, ok_bind]
  cases hn : files.node? (s.root ++ parts.map Utf8.encode) with
  | none =>
    cases hw : files.walkFrom FileTree.maxLinks [] (s.root ++ parts.map Utf8.encode) with
    | error e => rfl
    | ok found =>
      obtain ⟨place, node⟩ := found
      obtain ⟨rfl, hfound⟩ := (hwalk place node).1 hw
      rw [hn] at hfound
      cases hfound
  | some node =>
    rw [(hwalk _ node).2 ⟨rfl, hn⟩]
    simp only [below?_append]

/-- A file is served under its path from the root. -/
theorem resolve_file (hroot : files.IsCanonical s.root) (hmax : s.maxBytes < UInt64.size)
    (h : s.IsPlain files) (hparts : IncludePath.resolve path = .ok parts)
    (hn : files.node? (s.root ++ parts.map Utf8.encode) = some (.file content.toByteArray)) :
    s.resolve files path = .ok ⟨String.ofList (Path.join parts), content⟩ := by
  rw [resolve_of_isPlain hroot h hparts, hn]
  refine mapError_eq_ok_iff.2 ((serve_eq_ok_iff hmax).2 ⟨rfl, h.size_le hn, ?_⟩)
  exact (keyOf_eq fun p hp => (h.forall_texts hn p hp).2.2).symm

/-- The path leads to a directory. -/
def LeadsToDirectory (s : Sandbox) (files : FileTree) (path : String) : Prop :=
  ∃ normal place, IncludePath.normalize path = .ok normal ∧
    files.Reaches s.root (Path.pieces (Utf8.encode normal.toList)) place .directory

theorem leadsToDirectory_iff (h : s.IsPlain files) (hparts : IncludePath.resolve path = .ok parts) :
    s.LeadsToDirectory files path ↔
      files.node? (s.root ++ parts.map Utf8.encode) = some .directory := by
  constructor
  · rintro ⟨normal, place, hnormal, hr⟩
    obtain ⟨parts', hparts', rfl⟩ := IncludePath.normalize_eq_ok_iff.1 hnormal
    rw [IncludePath.pieces_encode_of_resolve hparts'] at hr
    obtain rfl : parts = parts' := Except.ok.inj (hparts.symm.trans hparts')
    obtain ⟨rfl, hn⟩ := (h.reaches_parts_iff hparts).1 hr
    exact hn
  · intro hn
    refine ⟨_, s.root ++ parts.map Utf8.encode,
      IncludePath.normalize_eq_ok_iff.2 ⟨parts, hparts, rfl⟩, ?_⟩
    rw [IncludePath.pieces_encode_of_resolve hparts]
    exact (h.reaches_parts_iff hparts).2 ⟨rfl, hn⟩

/-! ### What memory answers -/

/-- The files below the root, each under its path from there as far as this is text, in any
order. -/
def Lists (s : Sandbox) (files : FileTree) (listing : List (String × String)) : Prop :=
  ∀ path content, (path, content) ∈ listing ↔
    ∃ texts : List (List Char),
      files.node? (s.root ++ texts.map Utf8.encode) = some (.file content.toByteArray) ∧
      path = String.ofList (Path.join texts)

variable {listing : List (String × String)}

/-- A file is listed under the path of its place and under no other. -/
theorem Lists.mem_iff (hl : s.Lists files listing) (h : s.IsPlain files) (hne : parts ≠ [])
    (hslash : ∀ p ∈ parts, '/' ∉ p) :
    (String.ofList (Path.join parts), content) ∈ listing ↔
      files.node? (s.root ++ parts.map Utf8.encode) = some (.file content.toByteArray) := by
  rw [hl]
  constructor
  · rintro ⟨texts, hn, heq⟩
    have htexts : ∀ p ∈ texts, '/' ∉ p := fun p hp => (h.forall_texts hn p hp).2.1
    obtain rfl := Path.join_inj hne (h.texts_ne_nil hn) hslash htexts (String.ofList_injective heq)
    exact hn
  · exact fun hn => ⟨parts, hn, rfl⟩

theorem Lists.get?_eq_some_iff (hl : s.Lists files listing) (h : s.IsPlain files)
    (hne : parts ≠ []) (hslash : ∀ p ∈ parts, '/' ∉ p) :
    (MemoryIncludes.ofList listing).get? (String.ofList (Path.join parts)) = some content ↔
      files.node? (s.root ++ parts.map Utf8.encode) = some (.file content.toByteArray) := by
  rw [← hl.mem_iff h hne hslash]
  refine MemoryIncludes.get?_ofList_eq_some_iff ?_ ?_
  · rintro ⟨path, c⟩ hmem
    obtain ⟨texts, hn, rfl⟩ := (hl path c).1 hmem
    have hnames := h.forall_texts hn
    exact MemoryIncludes.keyOf_join (h.texts_ne_nil hn) (fun p hp => (hnames p hp).2.1)
      fun p hp => (hnames p hp).1
  · intro path c c' hmem hmem'
    obtain ⟨texts, hn, rfl⟩ := (hl path c).1 hmem
    rw [hl.mem_iff h (h.texts_ne_nil hn) fun p hp => (h.forall_texts hn p hp).2.1, hn] at hmem'
    exact String.toByteArray_inj.1 (FileNode.file.inj (Option.some.inj hmem'))

/-- A path is looked up in memory at the place that it names. -/
theorem Lists.resolver_eq (hl : s.Lists files listing) (h : s.IsPlain files)
    (hparts : IncludePath.resolve path = .ok parts) :
    (∀ content : String,
      files.node? (s.root ++ parts.map Utf8.encode) = some (.file content.toByteArray) →
      (MemoryIncludes.ofList listing).resolver path =
        .ok ⟨String.ofList (Path.join parts), content⟩) ∧
    ((∀ content : String,
      files.node? (s.root ++ parts.map Utf8.encode) ≠ some (.file content.toByteArray)) →
      (MemoryIncludes.ofList listing).resolver path = .error ⟨.notFound, path⟩) := by
  obtain ⟨hne, hnames⟩ := IncludePath.parts_of_resolve hparts
  have hget : ∀ content : String,
      (MemoryIncludes.ofList listing).get? (String.ofList (Path.join parts)) = some content ↔
        files.node? (s.root ++ parts.map Utf8.encode) = some (.file content.toByteArray) :=
    fun _ => hl.get?_eq_some_iff h hne fun p hp => (hnames p hp).1
  rw [MemoryIncludes.resolver, IncludePath.normalize_eq_ok_iff.2 ⟨parts, hparts, rfl⟩, ok_bind]
  constructor
  · intro content hn
    rw [(hget content).2 hn]
    rfl
  · intro hno
    rw [Option.eq_none_iff_forall_ne_some.2 fun content hc => hno content ((hget content).1 hc)]

/-! ### Both answers -/

/-- **A sandbox and a copy of its files in memory answer alike**, but for a path that leads to a
directory. -/
theorem resolve_eq_resolver (hroot : files.IsCanonical s.root) (hmax : s.maxBytes < UInt64.size)
    (h : s.IsPlain files) (hl : s.Lists files listing) (path : String) :
    (s.LeadsToDirectory files path →
      s.resolve files path = .error ⟨.notAFile, path⟩ ∧
        (MemoryIncludes.ofList listing).resolver path = .error ⟨.notFound, path⟩) ∧
    (¬ s.LeadsToDirectory files path →
      s.resolve files path = (MemoryIncludes.ofList listing).resolver path) := by
  cases hparts : IncludePath.resolve path with
  | error e =>
    have hnormal : IncludePath.normalize path = .error e := by
      rw [IncludePath.normalize, hparts]
      rfl
    refine ⟨?_, fun _ => ?_⟩
    · rintro ⟨normal, -, hn, -⟩
      rw [hnormal] at hn
      cases hn
    · rw [resolve, hparts, MemoryIncludes.resolver, hnormal]
      rfl
  | ok parts =>
    rw [leadsToDirectory_iff h hparts]
    obtain ⟨hfound, hmissing⟩ := hl.resolver_eq h hparts
    have hne : parts.map Utf8.encode ≠ [] :=
      mt List.map_eq_nil_iff.1 (IncludePath.parts_of_resolve hparts).1
    obtain hn | hn | ⟨content, hn, -⟩ := h.node?_cases hne
    · rw [hn] at hmissing ⊢
      refine ⟨fun hd => ?_, fun _ => ?_⟩
      · cases hd
      · rw [resolve_of_isPlain hroot h hparts, hn, hmissing (by simp)]
    · rw [hn] at hmissing ⊢
      refine ⟨fun _ => ⟨?_, hmissing (by simp)⟩, fun hd => absurd rfl hd⟩
      rw [resolve_of_isPlain hroot h hparts, hn]
      rfl
    · rw [hn]
      refine ⟨fun hd => ?_, fun _ => ?_⟩
      · cases hd
      · rw [resolve_file hroot hmax h hparts hn, hfound content hn]

/-- A file in a directory, and one whose name is a blank: only a path that is not blank itself leads
there. -/
theorem resolve_eq_resolver_of_blank_name :
    let s : Sandbox := ⟨["r"], 2⟩
    let files : FileTree := ⟨[
      (["r"], .directory), (["r", "d"], .directory),
      (["r", "d", "a"], .file "hi".toByteArray), (["r", " "], .file "b".toByteArray)]⟩
    let memory := MemoryIncludes.ofList [(" ", "b"), ("d/a", "hi")]
    (s.resolve files "d/" = .error ⟨.notAFile, "d/"⟩ ∧
        memory.resolver "d/" = .error ⟨.notFound, "d/"⟩) ∧
      s.resolve files "./ " = .ok ⟨" ", "b"⟩ ∧ s.resolve files "./ " = memory.resolver "./ " ∧
      s.resolve files "d/./a" = .ok ⟨"d/a", "hi"⟩ ∧
      s.resolve files "d/./a" = memory.resolver "d/./a" := by
  intro s files memory
  have hroot : files.IsCanonical s.root :=
    .child .root rfl ⟨rfl, by decide, by decide⟩ rfl fun _ h => nomatch h
  have hnode : ∀ {place node}, files.node? place = some node → place = [] ∨
      (place, node) ∈ files.nodes := by
    intro place node h
    by_cases hnil : place = []
    · exact .inl hnil
    · rw [FileTree.node?, if_neg hnil] at h
      obtain ⟨front, back, heq, -⟩ := List.lookup_eq_some_iff.1 h
      exact .inr (heq ▸ List.mem_append_right front List.mem_cons_self)
  have hsplit : ∀ {inside : Place} {p q : Path.Name} (qs : Place), inside ++ [p] = qs ++ [q] →
      inside = qs ∧ p = q := by
    intro inside p q qs h
    obtain ⟨rfl, hlast⟩ := List.append_inj' h rfl
    exact ⟨rfl, List.singleton_inj.1 hlast⟩
  have hbelow : ∀ {inside : Place} {p : Path.Name} {node},
      files.node? (s.root ++ (inside ++ [p])) = some node →
      inside = [] ∧ p = "d" ∧ node = .directory ∨
      inside = ["d"] ∧ p = "a" ∧ node = .file "hi".toByteArray ∨
      inside = [] ∧ p = " " ∧ node = .file "b".toByteArray := by
    intro inside p node h
    obtain hnil | hmem := hnode h
    · cases hnil
    · simp only [files, List.mem_cons, List.not_mem_nil, or_false, Prod.mk.injEq] at hmem
      rcases hmem with ⟨hp, rfl⟩ | ⟨hp, rfl⟩ | ⟨hp, rfl⟩ | ⟨hp, rfl⟩
      · exact absurd (List.cons.inj hp).2 (List.append_ne_nil_of_right_ne_nil _ (by simp))
      · obtain ⟨rfl, rfl⟩ := hsplit [] (List.cons.inj hp).2
        exact .inl ⟨rfl, rfl, rfl⟩
      · obtain ⟨rfl, rfl⟩ := hsplit ["d"] (List.cons.inj hp).2
        exact .inr (.inl ⟨rfl, rfl, rfl⟩)
      · obtain ⟨rfl, rfl⟩ := hsplit [] (List.cons.inj hp).2
        exact .inr (.inr ⟨rfl, rfl, rfl⟩)
  have hplain : s.IsPlain files := by
    refine ⟨rfl, fun h => ?_, fun h => ?_, fun h => ?_, fun h => ?_⟩
    all_goals rcases hbelow h with ⟨rfl, rfl, rfl⟩ | ⟨rfl, rfl, rfl⟩ | ⟨rfl, rfl, rfl⟩
    · rfl
    · rfl
    · rfl
    · exact .inl rfl
    · exact .inr ⟨"hi", rfl, by decide⟩
    · exact .inr ⟨"b", rfl, by decide⟩
    · exact ⟨rfl, by decide, by decide⟩
    · exact ⟨rfl, by decide, by decide⟩
    · exact ⟨rfl, by decide, by decide⟩
    all_goals decide
  have hlists : s.Lists files [(" ", "b"), ("d/a", "hi")] := by
    intro path content
    simp only [List.mem_cons, List.not_mem_nil, or_false, Prod.mk.injEq]
    constructor
    · rintro (⟨rfl, rfl⟩ | ⟨rfl, rfl⟩)
      · exact ⟨[[' ']], rfl, rfl⟩
      · exact ⟨[['d'], ['a']], rfl, rfl⟩
    · rintro ⟨texts, hn, rfl⟩
      obtain rfl | ⟨texts, p, rfl⟩ := List.eq_nil_or_concat' texts
      · cases hn
      rw [List.map_append] at hn
      have hinj {qs : List (List Char)} : texts.map Utf8.encode = qs.map Utf8.encode → texts = qs :=
        fun h => List.map_injective_iff.2 Utf8.encode_injective h
      obtain ⟨ht, hp, h⟩ | ⟨ht, hp, h⟩ | ⟨ht, hp, h⟩ := hbelow hn
      · cases h
      · obtain rfl := @hinj [['d']] ht
        obtain rfl : p = ['a'] := Utf8.encode_injective hp
        exact .inr ⟨rfl, String.toByteArray_inj.1 (FileNode.file.inj h)⟩
      · obtain rfl := @hinj [] ht
        obtain rfl : p = [' '] := Utf8.encode_injective hp
        exact .inl ⟨rfl, String.toByteArray_inj.1 (FileNode.file.inj h)⟩
  have hmax : s.maxBytes < UInt64.size := by decide
  have hagree := resolve_eq_resolver hroot hmax hplain hlists
  have hd : IncludePath.resolve "d/" = .ok [['d']] := rfl
  have hb : IncludePath.resolve "./ " = .ok [[' ']] := rfl
  have ha : IncludePath.resolve "d/./a" = .ok [['d'], ['a']] := rfl
  have hdirectory : s.LeadsToDirectory files "d/" := (leadsToDirectory_iff hplain hd).2 rfl
  have hblank : ¬ s.LeadsToDirectory files "./ " := by
    rw [leadsToDirectory_iff hplain hb]
    intro h
    cases h
  have hfile : ¬ s.LeadsToDirectory files "d/./a" := by
    rw [leadsToDirectory_iff hplain ha]
    intro h
    cases h
  exact ⟨(hagree "d/").1 hdirectory, resolve_file hroot hmax hplain hb rfl,
    (hagree "./ ").2 hblank, resolve_file hroot hmax hplain ha rfl, (hagree "d/./a").2 hfile⟩

end Sandbox

end Stencil
