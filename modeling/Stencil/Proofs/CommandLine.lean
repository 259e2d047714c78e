import Mathlib
import Stencil.CommandLine
import Stencil.Proofs.Document.Tiling
import Stencil.Proofs.Engine.Sharing
import Stencil.Proofs.Render.Failures

/-!
# The command line and the engine

The program does not answer a request through `Engine.handle`; it takes the same steps one by one,
to report on a failure in between. What it leaves behind is what the response of the engine says
all the same, and a report adds nothing but complaints (`CommandLine.run_tells`). The lines of the
log are not looked at here.

There is one exception. A report that cannot be drawn breaks the program off. This is so exactly
where the template of the request has a defect that ends before it starts (`Engine.Undrawable`): a
failure that is raised at a node has the span of the node, and no node ends before it starts.
-/

namespace Stencil

/-! ### Responses -/

namespace Response

theorem status_failure_ne (d : Diagnostic) : (failure d).status ≠ okStatus := by
  have h : ∀ k : DiagnosticKind, k.status ≠ okStatus := by
    intro k
    cases k <;> decide
  exact h d.kind

theorem result?_success (text : String) : (success text).result? = some text := rfl

/-- A failure comes with no text. -/
theorem result?_failure (d : Diagnostic) : (failure d).result? = none := rfl

end Response

/-! ### Engines -/

namespace Engine

variable {e : Engine} {files : FileTree}

/-- What a request comes to, before it is made a response. -/
def outcome (e : Engine) (files : FileTree) (cache : Option Cache) (body : String) :
    Except Diagnostic String :=
  match RenderRequest.read body with
  | .error error => .error error.diagnostic
  | .ok r => (e.renderRequest files cache r).1

theorem handle_fst (e : Engine) (files : FileTree) (cache : Option Cache) (body : String) :
    (e.handle files cache body).1 = .ofResult (e.outcome files cache body) := by
  unfold handle outcome
  cases RenderRequest.read body <;> rfl

/-- The template of the request has a defect that ends before it starts. -/
def Undrawable (e : Engine) (body : String) : Prop :=
  ∃ r template error, RenderRequest.read body = .ok r ∧ r.template = some template ∧
    Document.parse e.config.limits.nesting template = .error error ∧
    error.span.stop < error.span.start

theorem render_of_parse_error {template : String} {error : ParseError}
    (h : Document.parse e.config.limits.nesting template = .error error) (params : Params)
    (mode : Mode) :
    (e.render files e.newCache template params mode).1 =
      .error ((Diagnostic.ofParseError error).locate template) := by
  rw [(e.cacheFits_newCache template params mode).render_fst, render, Render.template,
    Cache.lookUp_none, h]

/-- A render fails in the template itself without a span that can be drawn exactly if the template
has a defect that ends before it starts. -/
theorem backwards_iff_of_render {template : String} {params : Params} {mode : Mode}
    {d : Diagnostic} (h : (e.render files e.newCache template params mode).1 = .error d) :
    (d.origin = none ∧ ∃ span, d.span = some span ∧ span.stop < span.start) ↔
      ∃ error, Document.parse e.config.limits.nesting template = .error error ∧
        error.span.stop < error.span.start := by
  constructor
  · rintro ⟨ho, span, hs, hlt⟩
    obtain ⟨content, hn, hp⟩ := Render.exists_names (e.cacheFits_newCache template params mode) h
    rw [ho] at hn
    obtain rfl : content = template := hn
    cases hp.explained with
    | unparsed error hparse hd =>
      rw [hd] at hs
      cases hs
      exact ⟨error, hparse, hlt⟩
    | raised doc n hparse hocc hspan _ =>
      -- a node does not end before it starts
      obtain ⟨items, -, hlaid⟩ := Document.laid_of_parse hparse
      rw [hspan] at hs
      cases hs
      exact absurd (hlaid.stands n hocc).start_lt_stop (Nat.not_lt.2 (Nat.le_of_lt hlt))
  · rintro ⟨error, hparse, hlt⟩
    rw [render_of_parse_error hparse] at h
    cases h
    exact ⟨rfl, error.span, rfl, hlt⟩

end Engine

/-! ### Reports -/

theorem Diagnostic.report?_eq_none_iff {d : Diagnostic} {source name : String} :
    d.report? source name = none ↔ ∃ span, d.span = some span ∧ span.stop < span.start := by
  unfold Diagnostic.report?
  split
  · next h => simp [h]
  · next span h =>
    rw [h]
    split
    · next hlt => simpa using hlt
    · next hle => simpa using hle

namespace CommandLine

theorem reportOf_eq_none_iff {d : Diagnostic} {r : RenderRequest} :
    reportOf d r = none ↔ r.template.isSome ∧ d.origin = none ∧
      ∃ span, d.span = some span ∧ span.stop < span.start := by
  obtain ⟨kind, message, span, position, origin⟩ := d
  obtain ⟨template, params, mode⟩ := r
  unfold reportOf
  cases origin <;> cases template <;> cases span <;>
    simp [Diagnostic.report?_eq_none_iff]

theorem reportOfResult_quiet {o : Options} (hv : o.verbose = false) (r : RenderRequest)
    (result : Except Diagnostic String) : reportOfResult o r result = some "" := by
  cases result with
  | ok text => rfl
  | error d => simp only [reportOfResult, hv, Bool.false_eq_true, if_false]

/-- The report breaks the program off exactly where the template is to blame and cannot be drawn. -/
theorem reportOfResult_eq_none_iff (files : FileTree) {e : Engine} {o : Options}
    {r : RenderRequest} :
    reportOfResult o r (e.renderRequest files e.newCache r).1 = none ↔
      o.verbose = true ∧ ∃ template error, r.template = some template ∧
        Document.parse e.config.limits.nesting template = .error error ∧
        error.span.stop < error.span.start := by
  cases hv : o.verbose with
  | false => simp only [reportOfResult_quiet hv, reduceCtorEq, Bool.false_eq_true, false_and]
  | true =>
    cases ht : r.template with
    | none =>
      simp only [Engine.renderRequest_of_missing ht, reportOfResult, hv, if_true,
        reportOf_eq_none_iff, ht, Option.isSome_none, Bool.false_eq_true, false_and,
        reduceCtorEq, exists_false, and_false]
    | some template =>
      rw [Engine.renderRequest_of_template ht]
      cases h : (e.render files e.newCache template (r.params.getD .empty)
        (Mode.ofName? r.mode)).1 with
      | ok text =>
        refine iff_of_false (by simp [reportOfResult]) ?_
        rintro ⟨-, _, error, ⟨⟩, hparse, -⟩
        rw [Engine.render_of_parse_error hparse] at h
        cases h
      | error d =>
        have hback := Engine.backwards_iff_of_render h
        simp only [reportOfResult, hv, if_true, reportOf_eq_none_iff, ht, Option.isSome_some,
          hback, true_and, Option.some.injEq]
        constructor
        · rintro ⟨error, h⟩
          exact ⟨template, error, rfl, h⟩
        · rintro ⟨_, error, rfl, h⟩
          exact ⟨error, h⟩

/-! ### Exits -/

/-- A report comes before the other complaints, and changes nothing else. -/
theorem exitOf_report (o : Options) (report : String) (r : Response) :
    exitOf o report r =
      { exitOf o "" r with complaints := report ++ (exitOf o "" r).complaints } := by
  unfold exitOf
  cases o.raw with
  | false => simp
  | true =>
    cases r.result? with
    | none => simp [String.append_assoc]
    | some text => simp

end CommandLine

/-- What the program leaves behind says what the response says. -/
structure Exit.Tells (exit : Exit) (raw : Bool) (r : Response) : Prop where
  /-- The exit status tells success from failure. -/
  status_eq : exit.status =
    if r.status = Response.okStatus then CommandLine.success else CommandLine.failure
  /-- The whole response is written, -/
  whole : raw = false → exit.output = r.bodyText ++ "\n"
  /-- or only the text of a success, -/
  text : raw = true → r.status = Response.okStatus → r = .success exit.output
  /-- and nothing of a failure. -/
  nothing : raw = true → r.status ≠ Response.okStatus → exit.output = ""

namespace CommandLine

theorem status_exitOf (o : Options) (report : String) (r : Response) :
    (exitOf o report r).status = if r.status = Response.okStatus then success else failure := by
  have hsuccess : r.isSuccess = true ↔ r.status = Response.okStatus := beq_iff_eq
  unfold exitOf
  simp only [hsuccess]
  cases o.raw <;> cases r.result? <;> rfl

theorem tells_exitOf (o : Options) (report : String) (result : Except Diagnostic String) :
    (exitOf o report (.ofResult result)).Tells o.raw (.ofResult result) := by
  refine ⟨status_exitOf o report _, fun hr => ?_, fun hr hs => ?_, fun hr hs => ?_⟩
  · simp only [exitOf, hr, Bool.false_eq_true, if_false]
  · cases result with
    | ok text => simp only [exitOf, hr, if_true, Response.ofResult, Response.result?_success]
    | error d => exact absurd hs (Response.status_failure_ne d)
  · cases result with
    | ok text => exact absurd rfl hs
    | error d => simp only [exitOf, hr, if_true, Response.ofResult, Response.result?_failure]

/-! ### The program -/

/-- Unless a report breaks it off, the program writes what the response of the engine says. -/
theorem answer_eq_exitOf (files : FileTree) {e : Engine} {o : Options} {body : String}
    (h : ¬ (o.verbose = true ∧ e.Undrawable body)) :
    ∃ report, answer files e o body = exitOf o report (e.handle files e.newCache body).1 ∧
      (o.verbose = false → report = "") := by
  rw [Engine.handle_fst, Engine.outcome, answer]
  cases hread : RenderRequest.read body with
  | error error => exact ⟨"", rfl, fun _ => rfl⟩
  | ok r =>
    dsimp only
    cases hreport : reportOfResult o r (e.renderRequest files e.newCache r).1 with
    | none =>
      obtain ⟨hv, template, error, ht, hparse, hlt⟩ := (reportOfResult_eq_none_iff files).1 hreport
      exact absurd ⟨hv, r, template, error, hread, ht, hparse, hlt⟩ h
    | some report =>
      refine ⟨report, rfl, fun hv => ?_⟩
      rw [reportOfResult_quiet hv, Option.some.injEq] at hreport
      exact hreport.symm

theorem answer_undrawable {files : FileTree} {e : Engine} {o : Options} {body : String}
    (hv : o.verbose = true) (h : e.Undrawable body) :
    (answer files e o body).status = brokenOff ∧ (answer files e o body).output = "" := by
  obtain ⟨r, template, error, hread, ht, hparse, hlt⟩ := h
  have hnone := (reportOfResult_eq_none_iff files).2 ⟨hv, template, error, ht, hparse, hlt⟩
  simp only [answer, hread, hnone, and_self]

theorem run_eq_answer {files : FileTree} {home : Place} {arguments : List String} {o : Options}
    {input : ByteArray} {config : Config} {e : Engine} {body : String}
    (ho : Options.read arguments = .answer o) (hc : configOf files home o = .ok config)
    (he : Engine.ofConfig files home config = .ok e) (hb : bodyOf files home o input = .ok body) :
    run files home arguments input = answer files e o body := by
  simp only [run, ho, runWith, hc, he, hb]

/-- **The program agrees with the engine**, and `--verbose` only adds complaints, unless it breaks
off: this it does with `--verbose`, exactly where the template of the request has a defect that ends
before it starts. -/
theorem run_tells {files : FileTree} {home : Place} {arguments : List String} {o : Options}
    {input : ByteArray} {config : Config} {e : Engine} {body : String}
    (ho : Options.read arguments = .answer o) (hc : configOf files home o = .ok config)
    (he : Engine.ofConfig files home config = .ok e) (hb : bodyOf files home o input = .ok body) :
    (¬ (o.verbose = true ∧ e.Undrawable body) →
      (run files home arguments input).Tells o.raw (e.handle files e.newCache body).1 ∧
        ∀ quiet, Options.read quiet = .answer { o with verbose := false } →
          ∃ report, run files home arguments input =
            { run files home quiet input with
              complaints := report ++ (run files home quiet input).complaints }) ∧
    (o.verbose = true ∧ e.Undrawable body →
      (run files home arguments input).status = brokenOff ∧
        (run files home arguments input).output = "") := by
  rw [run_eq_answer ho hc he hb]
  refine ⟨fun h => ?_, fun ⟨hv, h⟩ => answer_undrawable hv h⟩
  obtain ⟨report, hanswer, -⟩ := answer_eq_exitOf files h
  refine ⟨?_, fun quiet hq => ⟨report, ?_⟩⟩
  · rw [hanswer, Engine.handle_fst]
    exact tells_exitOf o report _
  · have hsilent : ¬ (false = true ∧ e.Undrawable body) := fun h => Bool.false_ne_true h.1
    obtain ⟨nothing, hquiet, hnothing⟩ :=
      @answer_eq_exitOf files e { o with verbose := false } body hsilent
    rw [run_eq_answer hq hc he hb, hquiet, hnothing rfl, hanswer]
    exact exitOf_report o report _

/-- An `else` in no block is reported and answered. -/
theorem run_tells_of_unopened :
    let o : Options := ⟨none, none, none, false, true⟩
    let e : Engine := .withResolver .standard .none
    let body := "\x7b\"template\":\"[% else %]\"\x7d"
    Options.read ["-v"] = .answer o ∧ configOf ⟨[]⟩ [] o = .ok .standard ∧
      Engine.ofConfig ⟨[]⟩ [] .standard = .ok e ∧ bodyOf ⟨[]⟩ [] o body.toUTF8 = .ok body ∧
      ¬ e.Undrawable body ∧
      (run ⟨[]⟩ [] ["-v"] body.toUTF8).Tells false (e.handle ⟨[]⟩ e.newCache body).1 := by
  intro o e body
  have ho : Options.read ["-v"] = .answer o := by decide
  have hb : bodyOf ⟨[]⟩ [] o body.toUTF8 = .ok body := by cbv
  have hread : RenderRequest.read body = .ok ⟨some "[% else %]", none, none⟩ := by cbv
  have hparse : Document.parse 64 "[% else %]" = .error ⟨.unopened .elseK, ⟨0, 10⟩⟩ := by cbv
  have hdrawn : ¬ e.Undrawable body := by
    rintro ⟨r, template, error, hr, ht, hp, hlt⟩
    rw [hread] at hr
    cases hr
    cases ht
    have herror := hparse.symm.trans hp
    cases herror
    exact absurd hlt (by decide)
  exact ⟨ho, rfl, rfl, hb, hdrawn, ((run_tells ho rfl rfl hb).1 fun h => hdrawn h.2).1⟩

/-- The condition stops after `and`, which ends at 12; the close marker begins at 13. The engine
answers with a failure, and so does the program, but not with `--verbose`. -/
theorem run_breaks_off :
    let e : Engine := .withResolver .standard .none
    let body := "\x7b\"template\":\"[% if $a and %]x[% endif %]\"\x7d"
    (e.handle ⟨[]⟩ e.newCache body).1.status = 400 ∧
      (run ⟨[]⟩ [] [] body.toUTF8).Tells false (e.handle ⟨[]⟩ e.newCache body).1 ∧
      (run ⟨[]⟩ [] ["-v"] body.toUTF8).status = 101 ∧
      (run ⟨[]⟩ [] ["-v"] body.toUTF8).output = "" := by
  intro e body
  have hread : RenderRequest.read body =
      .ok ⟨some "[% if $a and %]x[% endif %]", none, none⟩ := by cbv
  have hparse : Document.parse 64 "[% if $a and %]x[% endif %]" =
      .error ⟨.unexpectedEnd Condition.operandExpected, ⟨13, 12⟩⟩ := by cbv
  have hquiet : run ⟨[]⟩ [] [] body.toUTF8 = answer ⟨[]⟩ e Options.none body :=
    run_eq_answer (by decide) rfl rfl (by cbv)
  have hverbose : run ⟨[]⟩ [] ["-v"] body.toUTF8 =
      answer ⟨[]⟩ e ⟨none, none, none, false, true⟩ body :=
    run_eq_answer (by decide) rfl rfl (by cbv)
  have hundrawable : e.Undrawable body := ⟨_, _, _, hread, rfl, hparse, by decide⟩
  have hsilent : ¬ (Options.none.verbose = true ∧ e.Undrawable body) := fun h =>
    Bool.false_ne_true h.1
  refine ⟨?_, ?_, ?_⟩
  · rw [Engine.handle_fst, Engine.outcome, hread]
    dsimp only
    rw [Engine.renderRequest_of_template rfl, Engine.render_of_parse_error hparse]
    rfl
  · obtain ⟨report, hanswer, -⟩ := answer_eq_exitOf ⟨[]⟩ hsilent
    rw [hquiet, hanswer, Engine.handle_fst]
    exact tells_exitOf Options.none report _
  · rw [hverbose]
    exact answer_undrawable rfl hundrawable

end CommandLine

end Stencil
