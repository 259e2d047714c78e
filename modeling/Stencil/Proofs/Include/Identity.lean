import Stencil.Proofs.Include.Sandbox
import Stencil.Proofs.Render.Cycles

/-!
# What the key of an include identifies

A sandbox makes the key of a file from its canonical place below the root: the names with slashes
between them, read as text, with a replacement character for what is no UTF-8 and a slash for every
backslash. However many links lead to a file, it has one key. Two files have the same key exactly
if their places become the same when every name is read as text in this way and cut at its
backslashes; so a key identifies the file where all names are text without backslashes, and then a
render reports a cycle only where a file is included while it is being evaluated
(`key_identifies`).

With backslashes a key may stand for several files (`key_of_two_files`), and so it may with names
that are no text (`key_of_two_names`).
-/

namespace Stencil

/-! ### Names on the way -/

namespace FileTree

/-- After an initial part of `root` the place has names without slashes. -/
def SlashFreeFrom (root place : Place) : Prop :=
  ∃ above below, place = above ++ below ∧ above <+: root ∧ ∀ p ∈ below, Path.Letter.slash ∉ p

variable {t : FileTree} {links : Nat} {root here place inside : Place} {ps : List Path.Name}
  {node : FileNode}

theorem slashFreeFrom_self (root : Place) : SlashFreeFrom root root :=
  ⟨root, [], (List.append_nil root).symm, List.prefix_rfl, List.forall_mem_nil _⟩

theorem SlashFreeFrom.dropLast (h : SlashFreeFrom root place) :
    SlashFreeFrom root place.dropLast := by
  obtain ⟨above, below, rfl, ha, hb⟩ := h
  by_cases hnil : below = []
  · refine ⟨above.dropLast, [], by simp [hnil], ?_, List.forall_mem_nil _⟩
    exact (List.dropLast_prefix above).trans ha
  · refine ⟨above, below.dropLast, List.dropLast_append_of_ne_nil hnil, ha, fun p hp => ?_⟩
    exact hb p (List.mem_of_mem_dropLast hp)

theorem SlashFreeFrom.concat {p : Path.Name} (h : SlashFreeFrom root place)
    (hp : Path.Letter.slash ∉ p) : SlashFreeFrom root (place ++ [p]) := by
  obtain ⟨above, below, rfl, ha, hb⟩ := h
  refine ⟨above, below ++ [p], List.append_assoc .., ha, fun q hq => ?_⟩
  obtain hq | hq := List.mem_append.1 hq
  · exact hb q hq
  · rwa [List.mem_singleton.1 hq]

/-- What stands below `root` in such a place has no slashes. -/
theorem SlashFreeFrom.of_append (h : SlashFreeFrom root (root ++ inside)) :
    ∀ p ∈ inside, Path.Letter.slash ∉ p := by
  obtain ⟨above, below, heq, ⟨rest, rfl⟩, hb⟩ := h
  rw [List.append_assoc, List.append_cancel_left_eq] at heq
  intro p hp
  exact hb p (heq ▸ List.mem_append_right rest hp)

/-- **A path adds only names without slashes to the place where it begins**: those are pieces of it
or of the links on the way. -/
theorem Leads.slashFreeFrom (h : t.Leads links here ps place node)
    (hh : SlashFreeFrom root here) (hps : ∀ p ∈ ps, Path.Letter.slash ∉ p) :
    SlashFreeFrom root place := by
  induction h with
  | arrive _ => exact hh
  | stay _ _ _ ih => exact ih hh fun p hp => hps p (List.mem_cons_of_mem _ hp)
  | climb _ _ ih => exact ih hh.dropLast fun p hp => hps p (List.mem_cons_of_mem _ hp)
  | enter _ _ _ _ ih =>
    exact ih (hh.concat (hps _ List.mem_cons_self)) fun p hp => hps p (List.mem_cons_of_mem _ hp)
  | follow _ _ _ _ ih =>
    refine ih ?_ fun p hp => ?_
    · split
      · exact ⟨[], [], rfl, List.nil_prefix, List.forall_mem_nil _⟩
      · exact hh
    · obtain hp | hp := List.mem_append.1 hp
      · exact Path.slash_notMem_of_mem_pieces hp
      · exact hps p (List.mem_cons_of_mem _ hp)

end FileTree

namespace Sandbox

variable {s : Sandbox} {files : FileTree} {path path' : String} {inside inside' : Place}
  {r r' : Resolved}

/-! ### Keys -/

/-- The names of a place, each read as text and cut at its backslashes. -/
def segments (inside : Place) : List (List Char) :=
  inside.flatMap fun p => Path.pieces ((Utf8.read p).map keyChar)

/-- A key shows the name as it is: it is text without backslashes. -/
def IsShown (p : Path.Name) : Prop := ∃ text : List Char, Utf8.encode text = p ∧ '\\' ∉ text

theorem segments_cons (p : Path.Name) (ps : Place) :
    segments (p :: ps) = Path.pieces ((Utf8.read p).map keyChar) ++ segments ps := List.flatMap_cons

theorem segments_ne_nil (h : inside ≠ []) : segments inside ≠ [] := by
  obtain ⟨p, ps, rfl⟩ := List.exists_cons_of_ne_nil h
  rw [segments_cons]
  exact List.append_ne_nil_of_left_ne_nil (Path.pieces_ne_nil _) _

theorem slash_notMem_of_mem_segments {p : List Char} (h : p ∈ segments inside) : '/' ∉ p := by
  obtain ⟨q, -, hp⟩ := List.mem_flatMap.1 h
  exact Path.slash_notMem_of_mem_pieces hp

/-- Names that are shown as they are can be told from what is left of them. -/
theorem map_encode_segments (hslash : ∀ p ∈ inside, Path.Letter.slash ∉ p)
    (hshown : ∀ p ∈ inside, IsShown p) : (segments inside).map Utf8.encode = inside := by
  induction inside with
  | nil => rfl
  | cons p ps ih =>
    obtain ⟨hp, hps⟩ := List.forall_mem_cons.1 hslash
    obtain ⟨⟨text, rfl, hback⟩, hps'⟩ := List.forall_mem_cons.1 hshown
    have htext : '/' ∉ text := fun h => hp (Path.slash_mem_encode_iff.2 h)
    rw [segments_cons, Utf8.read_encode, map_keyChar hback, Path.pieces_of_notMem htext,
      List.singleton_append, List.map_cons, ih hps hps']

/-- A key joins what is left of the names. -/
theorem map_read_join (inside : Place) :
    (Utf8.read (Path.join inside)).map keyChar = Path.join (segments inside) := by
  rw [Path.read_join]
  induction inside with
  | nil => rfl
  | cons p ps ih =>
    cases ps with
    | nil =>
      rw [segments_cons, segments, List.flatMap_nil, List.append_nil, Path.join_pieces]
      rfl
    | cons q qs =>
      rw [List.map_cons, List.map_cons, Path.join_cons_cons, ← List.map_cons, List.map_append,
        List.map_cons, ih, segments_cons p,
        Path.join_append (Path.pieces_ne_nil _) (segments_ne_nil (List.cons_ne_nil q qs)),
        Path.join_pieces]
      rfl

/-- **Two places have the same key exactly if the same is left of their names.** -/
theorem keyOf_eq_iff (h : inside ≠ []) (h' : inside' ≠ []) :
    keyOf inside = keyOf inside' ↔ segments inside = segments inside' := by
  rw [keyOf, keyOf, String.ofList_inj, map_read_join, map_read_join]
  constructor
  · exact Path.join_inj (segments_ne_nil h) (segments_ne_nil h')
      (fun _ => slash_notMem_of_mem_segments) fun _ => slash_notMem_of_mem_segments
  · exact congrArg Path.join

/-! ### Files -/

/-- A request for `path` is answered with `r`, and leads to the file at `inside` below the root. -/
structure Serves (s : Sandbox) (files : FileTree) (path : String) (inside : Place) (r : Resolved) :
    Prop where
  /-- The answer to the request. -/
  resolve_eq : s.resolve files path = .ok r
  /-- The file that the path leads to. -/
  offers : s.Offers files path (s.root ++ inside) r.content.toByteArray

/-- A path leads to one file only. -/
theorem Offers.unique {place place' : Place} {bytes bytes' : ByteArray}
    (h : s.Offers files path place bytes) (h' : s.Offers files path place' bytes') :
    place = place' := by
  obtain ⟨normal, hnormal, links, -, hl⟩ := h.reaches
  obtain ⟨normal', hnormal', links', -, hl'⟩ := h'.reaches
  rw [hnormal] at hnormal'
  cases hnormal'
  exact (hl.unique hl').1

theorem Serves.slash_notMem (h : s.Serves files path inside r) :
    ∀ p ∈ inside, Path.Letter.slash ∉ p := by
  obtain ⟨normal, -, links, -, hl⟩ := h.offers.reaches
  exact (hl.slashFreeFrom (FileTree.slashFreeFrom_self s.root)
    fun _ => Path.slash_notMem_of_mem_pieces).of_append

theorem Serves.node?_eq (h : s.Serves files path inside r) :
    files.node? (s.root ++ inside) = some (.file r.content.toByteArray) := by
  obtain ⟨_, -, _, -, hl⟩ := h.offers.reaches
  exact hl.node?_eq

/-- One file has one content, whatever path leads to it. -/
theorem Serves.content_eq (h : s.Serves files path inside r)
    (h' : s.Serves files path' inside r') : r.content = r'.content := by
  have hnode := h.node?_eq.symm.trans h'.node?_eq
  rwa [Option.some.injEq, FileNode.file.injEq, String.toByteArray_inj] at hnode

/-- Files whose names are shown as they are can be told apart by their keys. -/
theorem Serves.eq_of_segments_eq (h : s.Serves files path inside r)
    (h' : s.Serves files path' inside' r') (hshown : ∀ p ∈ inside ++ inside', IsShown p)
    (heq : segments inside = segments inside') : inside = inside' := by
  rw [← map_encode_segments h.slash_notMem fun p hp => hshown p (List.mem_append_left _ hp),
    ← map_encode_segments h'.slash_notMem fun p hp => hshown p (List.mem_append_right _ hp), heq]

section

variable (hroot : files.IsCanonical s.root) (hmax : s.maxBytes < UInt64.size)

include hroot

theorem Serves.ne_nil (h : s.Serves files path inside r) : inside ≠ [] := by
  rintro rfl
  exact (h.offers.canonical hroot).2 (List.append_nil _).symm

include hmax

/-- Every answer is a file below the root. -/
theorem exists_serves (h : s.resolve files path = .ok r) :
    ∃ inside, s.Serves files path inside r := by
  obtain ⟨place, hoffers, -⟩ := (resolve_eq_ok_iff hroot hmax).1 h
  obtain ⟨inside, rfl⟩ := hoffers.isBelow
  exact ⟨inside, h, hoffers⟩

/-- The key is made from the place of the file. -/
theorem Serves.key_eq (h : s.Serves files path inside r) : r.key = keyOf inside := by
  obtain ⟨place, hoffers, hkey⟩ := (resolve_eq_ok_iff hroot hmax).1 h.resolve_eq
  rw [hkey, hoffers.unique h.offers, List.drop_left]

/-- **A file has one key and one content**, whatever path leads to it. -/
theorem Serves.eq (h : s.Serves files path inside r) (h' : s.Serves files path' inside r') :
    r = r' := by
  have hkey := (h.key_eq hroot hmax).trans (h'.key_eq hroot hmax).symm
  have hcontent := h.content_eq h'
  obtain ⟨key, content⟩ := r
  obtain ⟨key', content'⟩ := r'
  rw [Resolved.mk.injEq]
  exact ⟨hkey, hcontent⟩

theorem Serves.key_eq_iff (h : s.Serves files path inside r)
    (h' : s.Serves files path' inside' r') :
    r.key = r'.key ↔ segments inside = segments inside' := by
  rw [h.key_eq hroot hmax, h'.key_eq hroot hmax, keyOf_eq_iff (h.ne_nil hroot) (h'.ne_nil hroot)]

end

/-- **What a key identifies.** An answer is a file below the root. The keys of two files are the
same exactly if their places are when every name is read as text and cut at its backslashes: so a
file has one key and one content, and files whose names are text without backslashes have the same
key only if they are the same file. And a render reports a cycle only where a file is included while
a file with the same key, hence with such names the same file, is being evaluated. -/
theorem key_identifies (hroot : files.IsCanonical s.root) (hmax : s.maxBytes < UInt64.size) :
    (∀ path r, s.resolve files path = .ok r → ∃ inside, s.Serves files path inside r) ∧
    (∀ path path' inside inside' r r', s.Serves files path inside r →
      s.Serves files path' inside' r' →
        (r.key = r'.key ↔ segments inside = segments inside') ∧
        (inside = inside' → r = r') ∧
        ((∀ p ∈ inside ++ inside', IsShown p) → r.key = r'.key → inside = inside')) ∧
    ∀ params mode limits cache source d chain,
      (Render.template ⟨params, mode, s.resolver files, limits⟩ cache source).1 = .error d →
      d.Reports (.cycle chain) →
        ∃ outer path inside inside' r r',
          Render.IncludesWithin ⟨params, mode, s.resolver files, limits⟩ cache source outer path ∧
          s.Serves files outer inside r ∧ s.Serves files path inside' r' ∧
          segments inside = segments inside' ∧
          ((∀ p ∈ inside ++ inside', IsShown p) → inside = inside') := by
  refine ⟨fun path r h => exists_serves hroot hmax h, ?_, ?_⟩
  · intro path path' inside inside' r r' h h'
    have hiff := h.key_eq_iff hroot hmax h'
    refine ⟨hiff, ?_, fun hshown hkey => ?_⟩
    · rintro rfl
      exact h.eq hroot hmax h'
    · exact h.eq_of_segments_eq h' hshown (hiff.1 hkey)
  · intro params mode limits cache source d chain h hd
    obtain ⟨outer, path, r, r', hwithin, hr, hr', hkey⟩ := Render.exists_include_within h hd
    obtain ⟨inside, hin⟩ := exists_serves hroot hmax hr
    obtain ⟨inside', hin'⟩ := exists_serves hroot hmax hr'
    have hsegments := (hin.key_eq_iff hroot hmax hin').1 hkey
    exact ⟨outer, path, inside, inside', r, r', hwithin, hin, hin', hsegments,
      fun hshown => hin.eq_of_segments_eq hin' hshown hsegments⟩

/-- A file that includes itself through a link. -/
theorem key_identifies_through_link :
    let s : Sandbox := ⟨["r"], 99⟩
    let files : FileTree := ⟨[(["r"], .directory), (["r", "i"], .link "a"),
      (["r", "a"], .file "[% include 'i' %]".toByteArray)]⟩
    let job : Render.Job := ⟨.empty, .html, s.resolver files, ⟨9, 9, 9, 9⟩⟩
    let source := "[% include 'a' %]"
    let d : Diagnostic := ⟨.evaluationError, "include cycle detected: a -> a", some ⟨0, 17⟩,
      some ⟨0, 1, 1⟩, some "a"⟩
    files.IsCanonical s.root ∧ s.maxBytes < UInt64.size ∧
      (Render.template job none source).1 = .error d ∧ d.Reports (.cycle ["a", "a"]) ∧
      (∃ inside, s.Serves files "i" inside ⟨"a", "[% include 'i' %]"⟩) ∧
      ∃ outer path inside inside' r r', Render.IncludesWithin job none source outer path ∧
        s.Serves files outer inside r ∧ s.Serves files path inside' r' ∧
        segments inside = segments inside' := by
  intro s files job source d
  have hroot : files.IsCanonical s.root :=
    .child .root rfl ⟨rfl, by decide, by decide⟩ rfl fun _ h => nomatch h
  have hmax : s.maxBytes < UInt64.size := by decide
  have hfirst : s.resolve files "a" = .ok ⟨"a", "[% include 'i' %]"⟩ := by cbv
  have hsecond : s.resolve files "i" = .ok ⟨"a", "[% include 'i' %]"⟩ := by cbv
  have hsource : Document.parse 9 source = .ok ⟨[.inclusion "a" ⟨0, 17⟩]⟩ := by cbv
  have hcontent : Document.parse 9 "[% include 'i' %]" = .ok ⟨[.inclusion "i" ⟨0, 17⟩]⟩ := by cbv
  have hraised : Render.Frame.failure ⟨"[% include 'i' %]", ["a"]⟩ .evaluationError
      (LimitError.cycle ["a", "a"]).message ⟨0, 17⟩ = d := by decide
  have hdepth : 1 < job.limits.depth := by decide
  have hincludes : 1 < job.limits.includes := by decide
  have hrender := Render.template_of_include_within hdepth hincludes hsource hfirst hcontent hsecond
    rfl
  rw [hraised] at hrender
  have hcycle : d.Reports (.cycle ["a", "a"]) := ⟨rfl, by decide⟩
  obtain ⟨hserves, -, hwithin⟩ := key_identifies hroot hmax
  obtain ⟨outer, path, inside, inside', r, r', hw, hin, hin', hsame, -⟩ :=
    hwithin _ _ _ none source d _ hrender hcycle
  exact ⟨hroot, hmax, hrender, hcycle, hserves "i" _ hsecond, outer, path, inside, inside', r, r',
    hw, hin, hin', hsame⟩

/-- A file in a directory, and another one whose name has a backslash where the place of the first
has a slash: they have one key, and the second cannot be included in the first. -/
theorem key_of_two_files :
    let s : Sandbox := ⟨["r"], 99⟩
    let files : FileTree := ⟨[(["r"], .directory), (["r", "a"], .directory),
      (["r", "a", "b"], .file "[% include 'a\\\\b' %]".toByteArray),
      (["r", "a\\b"], .file "two".toByteArray)]⟩
    let job : Render.Job := ⟨.empty, .html, s.resolver files, ⟨9, 9, 9, 9⟩⟩
    s.resolve files "a/b" = .ok ⟨"a/b", "[% include 'a\\\\b' %]"⟩ ∧
      s.resolve files "a\\b" = .ok ⟨"a/b", "two"⟩ ∧
      (Render.template job none "[% include 'a/b' %]").1 =
        .error ⟨.evaluationError, "include cycle detected: a/b -> a/b", some ⟨0, 20⟩,
          some ⟨0, 1, 1⟩, some "a/b"⟩ := by
  intro s files job
  have hfirst : s.resolve files "a/b" = .ok ⟨"a/b", "[% include 'a\\\\b' %]"⟩ := by cbv
  have hsecond : s.resolve files "a\\b" = .ok ⟨"a/b", "two"⟩ := by cbv
  have hsource : Document.parse 9 "[% include 'a/b' %]" =
      .ok ⟨[.inclusion "a/b" ⟨0, 19⟩]⟩ := by cbv
  have hcontent : Document.parse 9 "[% include 'a\\\\b' %]" =
      .ok ⟨[.inclusion "a\\b" ⟨0, 20⟩]⟩ := by cbv
  have hraised : Render.Frame.failure ⟨"[% include 'a\\\\b' %]", ["a/b"]⟩ .evaluationError
      (LimitError.cycle ["a/b", "a/b"]).message ⟨0, 20⟩ =
      ⟨.evaluationError, "include cycle detected: a/b -> a/b", some ⟨0, 20⟩, some ⟨0, 1, 1⟩,
        some "a/b"⟩ := by decide
  have hdepth : 1 < job.limits.depth := by decide
  have hincludes : 1 < job.limits.includes := by decide
  have hrender := Render.template_of_include_within hdepth hincludes hsource hfirst hcontent hsecond
    rfl
  exact ⟨hfirst, hsecond, hrender.trans (congrArg Except.error hraised)⟩

/-- Two files whose names are one byte each that is no character, and a link to each of them. -/
theorem key_of_two_names :
    let s : Sandbox := ⟨["r"], 99⟩
    let files : FileTree := ⟨[(["r"], .directory), (["r", "a"], .link [0xFF]),
      (["r", "b"], .link [0xFE]), (["r", [0xFF]], .file "one".toByteArray),
      (["r", [0xFE]], .file "two".toByteArray)]⟩
    s.resolve files "a" = .ok ⟨"\uFFFD", "one"⟩ ∧ s.resolve files "b" = .ok ⟨"\uFFFD", "two"⟩ := by
  intro s files
  constructor <;> cbv

end Sandbox

end Stencil
