import Mathlib
import Stencil.Proofs.Render.Walk

/-!
# A render step by step

A render keeps one output, one stack of the keys of the includes that are open, and counts the
includes. `Machine` is a render in the middle of running, with all this and what it has still to do,
and `Machine.step` is its next step: a node is evaluated, or an include is left. Nothing in the
machine bounds how often it steps.

It stops all the same (`wellFounded_step`): a step that does not count one more of the includes that
there may be leaves less to do. It stops with what walking the document comes to
(`runsAbove_walk`). All the way the stack goes with what there is to do, with no key twice, and the
limits hold (`Lawful.step`); `runs_within_limits` says all of this of a render.
-/

namespace Stencil

namespace Render

open Relation

/-! ### The machine -/

/-- The template that is being walked, and how deep in includes. -/
structure Scope where
  /-- The text of the template. -/
  source : String
  /-- The key of the include that it is; nothing for the template of the render itself. -/
  origin : Option String
  /-- How many includes it is inside of, with itself. -/
  depth : Nat

/-- A failure at a span of the template. -/
def Scope.failure (s : Scope) (kind : DiagnosticKind) (message : String) (span : Span) :
    Diagnostic :=
  ((Diagnostic.of kind message).withSpan span s.source).withOrigin s.origin

/-- Something that is left to do. -/
inductive Task where
  /-- To evaluate nodes of a template. -/
  | walk (s : Scope) (list : List Node)
  /-- To leave the include that was entered last. -/
  | leave

/-- A render in the middle of running. -/
structure Machine where
  /-- The output so far. -/
  output : String
  /-- The keys of the open includes, the one entered last first. -/
  stack : List String
  /-- How many includes were counted. -/
  includes : Nat
  /-- The paths that the resolver was asked for, the last first. -/
  asked : List String
  /-- The cache, if there is one. -/
  cache : Option Cache
  /-- Why the render cannot go on. -/
  failure : Option Diagnostic
  /-- What is left to do, the next first. -/
  todo : List Task

namespace Machine

/-- Before the first step. -/
def start (cache : Option Cache) (source : String) (d : Document) : Machine :=
  ⟨"", [], 0, [], cache, none, [.walk ⟨source, none, 0⟩ d.nodes]⟩

/-- The render cannot go on. -/
def fail (m : Machine) (d : Diagnostic) : Machine := { m with failure := some d }

/-- Appends to the output, if there is room for it. -/
def write (m : Machine) (job : Job) (s : Scope) (span : Span) (text : String) : Machine :=
  if job.limits.bytes < m.output.utf8ByteSize + text.utf8ByteSize then
    m.fail (s.failure .evaluationError (LimitError.tooLarge job.limits.bytes).message span)
  else { m with output := m.output ++ text }

/-- Opens an include whose content is at hand: its key goes on the stack, and its nodes come
next. -/
def opened (m : Machine) (s : Scope) (r : Resolved) : Except ParseError Document → Machine
  | .error e => m.fail (((Diagnostic.ofParseError e).locate r.content).withOrigin (some r.key))
  | .ok d =>
    { m with
      stack := r.key :: m.stack
      todo := .walk ⟨r.content, some r.key, s.depth + 1⟩ d.nodes :: .leave :: m.todo }

/-- Goes on with an include when the resolver has answered. -/
def answered (m : Machine) (job : Job) (s : Scope) (span : Span) :
    Except IncludeError Resolved → Machine
  | .error e => m.fail (s.failure .sandboxViolation e.message span)
  | .ok r =>
    if r.key ∈ m.stack then
      m.fail (s.failure .evaluationError (LimitError.cycle (r.key :: m.stack).reverse).message span)
    else
      let found := Cache.lookUp m.cache job.limits.nesting r.content
      opened { m with cache := found.2 } s r found.1

/-- Enters an include, if includes may be that deep and there may be one more. -/
def enter (m : Machine) (job : Job) (s : Scope) (span : Span) (path : String) : Machine :=
  if job.limits.depth < s.depth + 1 then
    m.fail (s.failure .evaluationError (LimitError.tooDeep job.limits.depth).message span)
  else if job.limits.includes < m.includes + 1 then
    fail { m with includes := m.includes + 1 }
      (s.failure .evaluationError (LimitError.tooMany job.limits.includes).message span)
  else
    answered { m with includes := m.includes + 1, asked := path :: m.asked } job s span
      (job.resolver path)

/-- Evaluates a node. -/
def perform (m : Machine) (job : Job) (s : Scope) : Node → Machine
  | .literal text span => m.write job s span text
  | .interpolation name span => m.write job s span (job.mode.substitute (job.params.text name))
  | .conditional branches otherwise _ =>
    match select job.params branches otherwise with
    | none => m
    | some body => { m with todo := .walk s body :: m.todo }
  | .inclusion path span => m.enter job s span path

/-- The next step, if anything is left to do. After a failure no node is evaluated any more, but
the includes that are open are left. -/
def step (job : Job) (m : Machine) : Option Machine :=
  match m.todo with
  | [] => none
  | .leave :: rest => some { m with stack := m.stack.tail, todo := rest }
  | .walk s list :: rest =>
    match m.failure, list with
    | none, n :: ns => some ({ m with todo := .walk s ns :: rest }.perform job s n)
    | _, _ => some { m with todo := rest }

/-! ### What a step can do -/

/-- What evaluating a node can change. -/
inductive Performs (job : Job) (s : Scope) (n : Node) (m : Machine) : Machine → Prop where
  /-- There is more output, and there was room for it. -/
  | write (text : String)
      (h : m.output.utf8ByteSize + text.utf8ByteSize ≤ job.limits.bytes) :
      Performs job s n m { m with output := m.output ++ text }
  /-- Nothing of a conditional is taken. -/
  | skip : Performs job s n m m
  /-- A body of the conditional comes next. -/
  | take (body : List Node) (h : sizeOf body < sizeOf n) :
      Performs job s n m { m with todo := .walk s body :: m.todo }
  /-- A limit is exceeded. -/
  | fail (d : Diagnostic) : Performs job s n m (m.fail d)
  /-- There was one include too many. -/
  | tooMany (d : Diagnostic) : Performs job s n m (fail { m with includes := m.includes + 1 } d)
  /-- The resolver was asked for an include, which is not entered. -/
  | refuse (path : String) (cache : Option Cache) (d : Diagnostic)
      (h : m.includes < job.limits.includes) :
      Performs job s n m (fail { m with
        includes := m.includes + 1, asked := path :: m.asked, cache := cache } d)
  /-- The resolver was asked for an include, which is entered. -/
  | enter (path : String) (r : Resolved) (cache : Option Cache) (d : Document)
      (hd : s.depth < job.limits.depth) (h : m.includes < job.limits.includes)
      (hk : r.key ∉ m.stack) :
      Performs job s n m { m with
        stack := r.key :: m.stack, includes := m.includes + 1, asked := path :: m.asked
        cache := cache
        todo := .walk ⟨r.content, some r.key, s.depth + 1⟩ d.nodes :: .leave :: m.todo }

theorem performs_write (m : Machine) (job : Job) (s : Scope) (n : Node) (span : Span)
    (text : String) : Performs job s n m (m.write job s span text) := by
  unfold write
  split
  · exact .fail _
  · next h => exact .write text (Nat.not_lt.1 h)

theorem performs_enter (m : Machine) (job : Job) (s : Scope) (n : Node) (span : Span)
    (path : String) : Performs job s n m (m.enter job s span path) := by
  unfold enter
  split
  · exact .fail _
  next hd =>
  split
  · exact .tooMany _
  next hi =>
  have h : m.includes < job.limits.includes := Nat.not_lt.1 hi
  unfold answered
  split
  · exact .refuse path m.cache _ h
  next r _ =>
  split
  · exact .refuse path m.cache _ h
  next hk =>
  unfold opened
  dsimp only
  split
  · exact .refuse path _ _ h
  · next d _ => exact .enter path r _ d (Nat.not_lt.1 hd) h hk

theorem performs_perform (m : Machine) (job : Job) (s : Scope) (n : Node) :
    Performs job s n m (m.perform job s n) := by
  cases n with
  | literal text span => exact m.performs_write job s _ span text
  | interpolation name span => exact m.performs_write job s _ span _
  | conditional branches otherwise span =>
    rw [perform]
    split
    · exact .skip
    · next body h =>
      refine .take body ?_
      have := sizeOf_select_lt h
      simp only [Node.conditional.sizeOf_spec]
      omega
  | inclusion path span => exact m.performs_enter job s _ span path

/-- **What a step can do**: leave an include, evaluate a node, or pass over what is left of a
list. -/
theorem step_cases {job : Job} {m m' : Machine} (h : step job m = some m') :
    (∃ rest, m.todo = .leave :: rest ∧ m' = { m with stack := m.stack.tail, todo := rest }) ∨
    (∃ s n ns rest, m.todo = .walk s (n :: ns) :: rest ∧ m.failure = none ∧
      Performs job s n { m with todo := .walk s ns :: rest } m') ∨
    ∃ s list rest, m.todo = .walk s list :: rest ∧ m' = { m with todo := rest } := by
  unfold step at h
  split at h
  · cases h
  · next rest ht =>
    cases h
    exact .inl ⟨rest, ht, rfl⟩
  · next s list rest ht =>
    split at h
    · next n ns hf =>
      cases h
      exact .inr (.inl ⟨s, n, ns, rest, ht, hf, performs_perform ..⟩)
    · cases h
      exact .inr (.inr ⟨s, _, rest, ht, rfl⟩)

/-! ### Every run ends -/

/-- How much a task is, if no include is entered in it. -/
noncomputable def Task.weight : Task → Nat
  | .walk _ list => 1 + sizeOf list
  | .leave => 1

/-- How much there is to do, if no include is entered any more. -/
noncomputable def left (m : Machine) : Nat := (m.todo.map Task.weight).sum

/-- How many includes may still be counted, with the one that is refused. -/
def unused (job : Job) (m : Machine) : Nat := job.limits.includes + 1 - m.includes

/-- Evaluating a node counts an include that there may be, or leaves no more to do than a part of
the node. -/
theorem Performs.unused_lt_or {job : Job} {s : Scope} {n : Node} {m m' : Machine}
    (h : Performs job s n m m') :
    unused job m' < unused job m ∨
      unused job m' ≤ unused job m ∧ m'.left < m.left + 1 + sizeOf n := by
  cases h with
  | write text _ => exact .inr ⟨Nat.le_refl _, by simp only [left]; omega⟩
  | skip => exact .inr ⟨Nat.le_refl _, by omega⟩
  | take body h =>
    refine .inr ⟨Nat.le_refl _, ?_⟩
    simp only [left, List.map_cons, List.sum_cons, Task.weight]
    omega
  | fail d => exact .inr ⟨Nat.le_refl _, by simp only [left, Machine.fail]; omega⟩
  | tooMany d =>
    refine .inr ⟨?_, by simp only [left, Machine.fail]; omega⟩
    simp only [unused, Machine.fail]
    omega
  | refuse path cache d h =>
    refine .inl ?_
    simp only [unused, Machine.fail]
    omega
  | enter path r cache d _ h _ =>
    refine .inl ?_
    simp only [unused]
    omega

/-- **Every step counts an include that there may be, or leaves less to do.** -/
theorem lex_of_step {job : Job} {m m' : Machine} (h : step job m = some m') :
    Prod.Lex (· < ·) (· < ·) (unused job m', m'.left) (unused job m, m.left) := by
  obtain ⟨rest, ht, rfl⟩ | ⟨s, n, ns, rest, ht, -, hp⟩ | ⟨s, list, rest, ht, rfl⟩ := step_cases h
  · refine .right _ ?_
    simp only [left, ht, List.map_cons, List.sum_cons, Task.weight]
    omega
  · -- the node itself is no longer left, whatever it brings
    have hleft : m.left = left { m with todo := .walk s ns :: rest } + 1 + sizeOf n := by
      simp only [left, ht, List.map_cons, List.sum_cons, Task.weight, List.cons.sizeOf_spec]
      omega
    obtain hu | ⟨hu, hl⟩ := hp.unused_lt_or
    · exact .left _ _ hu
    · exact .right' _ hu (hleft ▸ hl)
  · refine .right _ ?_
    simp only [left, ht, List.map_cons, List.sum_cons, Task.weight]
    omega

/-- **Every run ends**: there is no machine that can step for ever. -/
theorem wellFounded_step (job : Job) : WellFounded fun m' m => step job m = some m' :=
  Subrelation.wf lex_of_step
    (InvImage.wf (fun m => (unused job m, m.left))
      (Prod.lex ⟨_, Nat.lt_wfRel.wf⟩ ⟨_, Nat.lt_wfRel.wf⟩).wf)

/-! ### What holds all the way -/

/-- The stack goes with what there is to do: a template that is to be walked is the include on top,
as deep as the stack is high, and every include that is to be left is on the stack. -/
inductive Nested : List String → List Task → Prop where
  /-- There is no include, and nothing to do. -/
  | nil : Nested [] []
  /-- Nodes of the include on top, or of the template of the render. -/
  | walk {keys : List String} {rest : List Task} {s : Scope} (list : List Node)
      (ho : s.origin = keys.head?) (hd : s.depth = keys.length) (h : Nested keys rest) :
      Nested keys (.walk s list :: rest)
  /-- The include on top is left. -/
  | leave {keys : List String} {rest : List Task} (key : String) (h : Nested keys rest) :
      Nested (key :: keys) (.leave :: rest)

theorem Nested.of_walk {keys : List String} {s : Scope} {list : List Node} {rest : List Task}
    (h : Nested keys (.walk s list :: rest)) :
    s.origin = keys.head? ∧ s.depth = keys.length ∧ Nested keys rest := by
  cases h with
  | walk _ ho hd h => exact ⟨ho, hd, h⟩

theorem Nested.of_leave {keys : List String} {rest : List Task}
    (h : Nested keys (.leave :: rest)) : Nested keys.tail rest := by
  cases h with
  | leave _ h => exact h

/-- A machine that keeps within the limits. -/
structure Lawful (job : Job) (m : Machine) : Prop where
  /-- No template is open twice. -/
  nodup : m.stack.Nodup
  /-- Includes are only so deep. -/
  depth : m.stack.length ≤ job.limits.depth
  /-- The resolver is not asked without counting it. -/
  counted : m.asked.length ≤ m.includes
  /-- The resolver is only asked so often. -/
  asked : m.asked.length ≤ job.limits.includes
  /-- The output is only so long. -/
  bytes : m.output.utf8ByteSize ≤ job.limits.bytes
  /-- The stack goes with what there is to do. -/
  nested : Nested m.stack m.todo

theorem lawful_start (job : Job) (cache : Option Cache) (source : String) (d : Document) :
    Lawful job (start cache source d) where
  nodup := List.nodup_nil
  depth := Nat.zero_le _
  counted := Nat.le_refl _
  asked := Nat.zero_le _
  bytes := Nat.zero_le _
  nested := .walk _ rfl rfl .nil

section

variable {job : Job} {m m' : Machine}

/-- Evaluating a node of the template on top keeps a machine within the limits. -/
theorem Lawful.performs {s : Scope} {n : Node} (hm : Lawful job m) (h : Performs job s n m m')
    (ho : s.origin = m.stack.head?) (hd : s.depth = m.stack.length) : Lawful job m' := by
  cases h with
  | write text h => exact { hm with bytes := by simpa using h }
  | skip => exact hm
  | take body _ => exact { hm with nested := .walk body ho hd hm.nested }
  | fail d => exact { hm with }
  | tooMany d => exact { hm with counted := Nat.le_succ_of_le hm.counted }
  | refuse path cache d h =>
    exact { hm with
      counted := Nat.succ_le_succ hm.counted
      asked := Nat.le_trans (Nat.succ_le_succ hm.counted) h }
  | enter path r cache d hlt h hk =>
    exact {
      nodup := List.nodup_cons.2 ⟨hk, hm.nodup⟩
      depth := hd ▸ hlt
      counted := Nat.succ_le_succ hm.counted
      asked := Nat.le_trans (Nat.succ_le_succ hm.counted) h
      bytes := hm.bytes
      nested := .walk d.nodes rfl (congrArg (· + 1) hd) (.leave r.key hm.nested) }

/-- **A step keeps within the limits.** -/
theorem Lawful.step (hm : Lawful job m) (h : step job m = some m') : Lawful job m' := by
  obtain ⟨rest, ht, rfl⟩ | ⟨s, n, ns, rest, ht, -, hp⟩ | ⟨s, list, rest, ht, rfl⟩ := step_cases h
  · exact { hm with
      nodup := List.Pairwise.tail hm.nodup
      depth := Nat.le_trans (by simp) hm.depth
      nested := (ht ▸ hm.nested).of_leave }
  · obtain ⟨ho, hd, hn⟩ := (ht ▸ hm.nested).of_walk
    have hm₁ : Lawful job { m with todo := .walk s ns :: rest } :=
      { hm with nested := .walk ns ho hd hn }
    exact hm₁.performs hp ho hd
  · exact { hm with nested := (ht ▸ hm.nested).of_walk.2.2 }

/-- **The output only ever grows at its end.** -/
theorem output_of_step (h : step job m = some m') : ∃ text, m'.output = m.output ++ text := by
  obtain ⟨rest, ht, rfl⟩ | ⟨s, n, ns, rest, ht, -, hp⟩ | ⟨s, list, rest, ht, rfl⟩ := step_cases h
  · exact ⟨"", by simp⟩
  · cases hp with
    | write text _ => exact ⟨text, rfl⟩
    | _ => exact ⟨"", by simp [Machine.fail]⟩
  · exact ⟨"", by simp⟩

end

/-- One machine comes to another, step by step. -/
def Runs (job : Job) : Machine → Machine → Prop := ReflTransGen fun m m' => step job m = some m'

/-- All that a run comes to keeps within the limits. -/
theorem Lawful.runs {job : Job} {m m' : Machine} (hm : Lawful job m) (h : Runs job m m') :
    Lawful job m' := by
  induction h with
  | refl => exact hm
  | tail _ hs ih => exact ih.step hs

/-! ### A run comes to what the render gives -/

/-- A run during which there is always more to do than the tasks below. -/
def RunsAbove (job : Job) (below : List Task) : Machine → Machine → Prop :=
  ReflTransGen fun m m' => step job m = some m' ∧ below.length < m.todo.length

/-- The machine that has come to an outcome, with these includes open and this to do. -/
def reached (o : Outcome) (keys asked : List String) (todo : List Task) : Machine :=
  ⟨o.progress.output, keys, o.progress.includes, asked, o.progress.cache, o.failure, todo⟩

end Machine

/-- What a frame says about the template that is being walked. -/
def Frame.scope (f : Frame) : Scope := ⟨f.source, f.origin, f.keys.length⟩

namespace Machine

section

variable {job : Job} {m m₁ m' : Machine} {below : List Task}

theorem RunsAbove.runs (h : RunsAbove job below m m') : Runs job m m' :=
  ReflTransGen.mono (fun _ _ h => h.1) _ _ h

theorem RunsAbove.mono {more : List Task} (h : RunsAbove job more m m')
    (hl : below.length ≤ more.length) : RunsAbove job below m m' :=
  ReflTransGen.mono (fun _ _ h => ⟨h.1, Nat.lt_of_le_of_lt hl h.2⟩) _ _ h

end

variable (job : Job)

/-- Once there is nothing left of a list, or the render has failed, the next task comes. -/
theorem step_pass {o : Outcome} {list : List Node} (h : o.failure ≠ none ∨ list = []) (s : Scope)
    (keys asked : List String) (todo : List Task) :
    step job (reached o keys asked (.walk s list :: todo)) = some (reached o keys asked todo) := by
  obtain ⟨failure, p⟩ := o
  cases failure <;> cases list <;> first | rfl | simp at h

/-- Writing is appending. -/
theorem write_reached (f : Frame) (span : Span) (text : String) (p : Progress)
    (asked : List String) (todo : List Task) :
    (reached (.ok p) f.keys asked todo).write job f.scope span text =
      reached (append job f span text p) f.keys asked todo := by
  by_cases h : job.limits.bytes < p.output.utf8ByteSize + text.utf8ByteSize
  · rw [append, if_pos h]
    exact if_pos h
  · rw [append, if_neg h]
    exact if_neg h

/-- What entering an include comes to: what there is to say about it, or its nodes come next. -/
theorem enter_reached (f : Frame) (path : String) (span : Span) (p : Progress)
    (asked : List String) (todo : List Task) :
    (∃ asked', (reached (.ok p) f.keys asked todo).enter job f.scope span path =
      reached (node job f (.inclusion path span) p) f.keys asked' todo) ∨
    ∃ r d q, f.keys.length < job.limits.depth ∧
      fetch job f span path p = (.ok (r, d), q) ∧
      (reached (.ok p) f.keys asked todo).enter job f.scope span path =
        reached (.ok q) (r.key :: f.keys) (path :: asked)
          (.walk (f.enter r).scope d.nodes :: .leave :: todo) := by
  by_cases hd : job.limits.depth ≤ f.keys.length
  · rw [node_tooDeep job f p path span hd]
    exact .inl ⟨asked, if_pos (Nat.lt_succ_of_le hd)⟩
  have hd' : f.keys.length < job.limits.depth := Nat.not_le.1 hd
  rw [node_inclusion job f p path span hd']
  by_cases hi : job.limits.includes ≤ p.includes
  · rw [fetch_tooMany span hi]
    exact .inl ⟨asked, (if_neg (Nat.not_lt.2 hd')).trans (if_pos (Nat.lt_succ_of_le hi))⟩
  have hi' : p.includes < job.limits.includes := Nat.not_le.1 hi
  have he : (reached (.ok p) f.keys asked todo).enter job f.scope span path =
      answered (reached (.ok ⟨p.output, p.includes + 1, p.cache⟩) f.keys (path :: asked) todo)
        job f.scope span (job.resolver path) :=
    (if_neg (Nat.not_lt.2 hd')).trans (if_neg (Nat.not_lt.2 hi'))
  rw [he]
  cases hr : job.resolver path with
  | error e =>
    rw [fetch_refused span hi' hr]
    exact .inl ⟨path :: asked, rfl⟩
  | ok r =>
    by_cases hk : r.key ∈ f.keys
    · rw [fetch_open span hi' hr hk]
      exact .inl ⟨path :: asked, if_pos hk⟩
    have ha (q : Progress) :
        (reached (.ok q) f.keys (path :: asked) todo).answered job f.scope span (.ok r) =
          opened (reached
              (.ok ⟨q.output, q.includes, (Cache.lookUp q.cache job.limits.nesting r.content).2⟩)
              f.keys (path :: asked) todo)
            f.scope r (Cache.lookUp q.cache job.limits.nesting r.content).1 :=
      if_neg hk
    rw [fetch_found span hi' hr hk, ha]
    cases (Cache.lookUp p.cache job.limits.nesting r.content).1 with
    | error e => exact .inl ⟨path :: asked, rfl⟩
    | ok d => exact .inr ⟨r, d, _, hd', rfl, rfl⟩

/-- **Evaluating nodes comes to what walking them comes to**, with the includes that were open
before. -/
theorem runsAbove_walk :
    (∀ (f : Frame) (list : List Node) (p : Progress), ∀ asked todo, ∃ asked',
      RunsAbove job todo (reached (.ok p) f.keys asked (.walk f.scope list :: todo))
        (reached (nodes job f list p) f.keys asked' todo)) ∧
    ∀ (f : Frame) (n : Node) (p : Progress), ∀ asked todo, ∃ asked',
      RunsAbove job todo ((reached (.ok p) f.keys asked todo).perform job f.scope n)
        (reached (node job f n p) f.keys asked' todo) := by
  refine @walk_induction job _ _ ?nil ?cons ?literal ?interpolation ?conditional ?inclusion
  case nil =>
    intro f p asked todo
    rw [nodes_nil]
    exact ⟨asked, .single ⟨step_pass job (.inr rfl) .., Nat.lt_succ_self _⟩⟩
  case cons =>
    intro f n ns p hn hns asked todo
    obtain ⟨asked₁, h₁⟩ := hn asked (.walk f.scope ns :: todo)
    -- the first step evaluates `n`, with the other nodes next in what there is to do
    have h₁ : RunsAbove job todo (reached (.ok p) f.keys asked (.walk f.scope (n :: ns) :: todo))
        (reached (node job f n p) f.keys asked₁ (.walk f.scope ns :: todo)) :=
      .head ⟨rfl, Nat.lt_succ_self _⟩ (h₁.mono (Nat.le_succ _))
    rw [nodes_cons]
    generalize node job f n p = o at h₁
    obtain ⟨_ | d, q⟩ := o
    · obtain ⟨asked₂, h₂⟩ := hns q asked₁ todo
      exact ⟨asked₂, h₁.trans h₂⟩
    · -- after a failure the other nodes are passed over
      exact ⟨asked₁, h₁.tail ⟨step_pass job (.inl (Option.some_ne_none d)) .., Nat.lt_succ_self _⟩⟩
  case literal =>
    intro f text span p asked todo
    rw [node_literal, perform, write_reached]
    exact ⟨asked, .refl⟩
  case interpolation =>
    intro f name span p asked todo
    rw [node_interpolation, perform, write_reached]
    exact ⟨asked, .refl⟩
  case conditional =>
    intro f branches otherwise span p ih asked todo
    rw [node_conditional, perform]
    cases hs : select job.params branches otherwise with
    | none => exact ⟨asked, .refl⟩
    | some body => exact ih body hs asked todo
  case inclusion =>
    intro f path span p ih asked todo
    obtain ⟨asked', he⟩ | ⟨r, d, q, hd, hf, he⟩ := enter_reached job f path span p asked todo
    · rw [perform, he]
      exact ⟨asked', .refl⟩
    · rw [perform, he, node_inclusion job f p path span hd, hf]
      -- the template runs above the task to leave it, which takes its key off the stack
      obtain ⟨asked', h⟩ := ih r d q hd hf (path :: asked) (.leave :: todo)
      exact ⟨asked', (h.mono (Nat.le_succ _)).tail ⟨rfl, Nat.lt_succ_self _⟩⟩

/-- After a node was evaluated, whatever it is, the includes that are open are those that were open
before. -/
theorem runsAbove_node {m : Machine} {s : Scope} {n : Node} {ns : List Node} {rest : List Task}
    (hm : Nested m.stack m.todo) (ht : m.todo = .walk s (n :: ns) :: rest)
    (hf : m.failure = none) :
    ∃ m₁ m', step job m = some m₁ ∧ RunsAbove job (.walk s ns :: rest) m₁ m' ∧
      m'.todo = .walk s ns :: rest ∧ m'.stack = m.stack := by
  obtain ⟨output, stack, includes, asked, cache, failure, todo⟩ := m
  obtain rfl : todo = _ := ht
  obtain rfl : failure = none := hf
  obtain ⟨source, origin, depth⟩ := s
  obtain ⟨ho, hd, -⟩ := hm.of_walk
  obtain rfl : origin = stack.head? := ho
  obtain rfl : depth = stack.length := hd
  obtain ⟨asked', h⟩ := (runsAbove_walk job).2 ⟨source, stack⟩ n ⟨output, includes, cache⟩ asked
    (.walk (Frame.scope ⟨source, stack⟩) ns :: rest)
  exact ⟨_, _, rfl, h, rfl, rfl⟩

/-- **Every render ends, and keeps within its limits all the way**, whatever the resolver answers.

No machine can step for ever, and a render comes to what walking the document comes to. On the way
the open includes are distinct, and no more than there may be; the resolver was asked no more often
than it may be; the output is no longer than it may be, and only ever grows at its end. Whenever a
node is evaluated, there are as many open includes as the template is deep, and once it was
evaluated the same are open again. -/
theorem runs_within_limits (cache : Option Cache) (source : String) (d : Document) :
    (WellFounded fun m' m => step job m = some m') ∧
    (∃ m, Runs job (start cache source d) m ∧ step job m = none ∧
      m.failure = (document job cache source d).failure ∧
      m.output = (document job cache source d).progress.output) ∧
    ∀ m, Runs job (start cache source d) m →
      m.stack.Nodup ∧ m.stack.length ≤ job.limits.depth ∧
      m.asked.length ≤ job.limits.includes ∧
      m.output.utf8ByteSize ≤ job.limits.bytes ∧
      (∀ m', step job m = some m' → ∃ text, m'.output = m.output ++ text) ∧
      ∀ s n ns rest, m.todo = .walk s (n :: ns) :: rest → m.failure = none →
        m.stack.length = s.depth ∧
        ∃ m₁ m', step job m = some m₁ ∧ RunsAbove job (.walk s ns :: rest) m₁ m' ∧
          m'.todo = .walk s ns :: rest ∧ m'.stack = m.stack := by
  refine ⟨wellFounded_step job, ?_, fun m h => ?_⟩
  · obtain ⟨asked, h⟩ := (runsAbove_walk job).1 ⟨source, []⟩ d.nodes ⟨"", 0, cache⟩ [] []
    exact ⟨_, h.runs, rfl, rfl, rfl⟩
  · have hm := (lawful_start job cache source d).runs h
    refine ⟨hm.nodup, hm.depth, hm.asked, hm.bytes, fun m' hs => output_of_step hs, ?_⟩
    intro s n ns rest ht hf
    exact ⟨(ht ▸ hm.nested).of_walk.2.1.symm, runsAbove_node job hm.nested ht hf⟩

/-- Every path leads to a new include, which has an include of a path that was never there. -/
def endless : Resolver := fun path => .ok ⟨path, "[% include \"" ++ path ++ "x\" %]"⟩

/-- Two of these includes are open, as many as may be, and the next one is evaluated. -/
theorem runs_within_limits_endless :
    let job : Job := ⟨.empty, .xml, endless, ⟨2, 3, 5, 8⟩⟩
    let source := "[% include \"a\" %]"
    let d : Document := ⟨[.inclusion "a" ⟨0, 17⟩]⟩
    let rest : List Task :=
      [.leave, .walk ⟨"[% include \"ax\" %]", some "a", 1⟩ [], .leave, .walk ⟨source, none, 0⟩ []]
    let inner : Scope := ⟨"[% include \"axx\" %]", some "ax", 2⟩
    let m : Machine := ⟨"", ["ax", "a"], 2, ["ax", "a"], none, none,
      .walk inner [.inclusion "axx" ⟨0, 19⟩] :: rest⟩
    Runs job (start none source d) m ∧ m.stack.Nodup ∧ m.stack.length ≤ 2 ∧ m.asked.length ≤ 3 ∧
      ∃ m₁ m', step job m = some m₁ ∧ RunsAbove job (.walk inner [] :: rest) m₁ m' ∧
        m'.stack = ["ax", "a"] := by
  intro job source d rest inner m
  let outer : Machine := ⟨"", ["a"], 1, ["a"], none, none,
    [.walk ⟨"[% include \"ax\" %]", some "a", 1⟩ [.inclusion "ax" ⟨0, 18⟩], .leave,
      .walk ⟨source, none, 0⟩ []]⟩
  have hfirst : step job (start none source d) = some outer := by cbv
  have hsecond : step job outer = some m := by cbv
  have hruns : Runs job (start none source d) m := .tail (.single hfirst) hsecond
  obtain ⟨-, -, h⟩ := runs_within_limits job none source d
  obtain ⟨hnodup, hdepth, hasked, -, -, h⟩ := h m hruns
  obtain ⟨-, m₁, m', hs, hr, -, hk⟩ := h _ _ _ _ rfl rfl
  exact ⟨hruns, hnodup, hdepth, hasked, m₁, m', hs, hr, hk⟩

end Machine

end Render

end Stencil
