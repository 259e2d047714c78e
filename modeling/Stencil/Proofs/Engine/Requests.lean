import Mathlib
import Stencil.Proofs.Engine.Escaping
import Stencil.Proofs.Engine.Mentioned
import Stencil.Proofs.Engine.Sharing
import Stencil.Proofs.Json

/-!
# What matters of a request

Of the fields of a request only the template, the parameters and the mode are looked at, and these
only for what they mean. No parameters are as good as an empty object of them, a parameter that is
null as good as none, and a mode is no more than what its name resolves to. Two requests that mean
the same are answered alike, down to the bytes of a failure (`Engine.handle_eq_of_alike`).

Parameters that differ in nulls alone agree on the truth and the text of every name
(`Params.agreeAt_of_given_eq`), and no render looks at more than that.
-/

namespace Stencil

/-! ### Meanings -/

namespace Json

/-- Whether the value is null. -/
def isNull : Json → Bool
  | .null => true
  | _ => false

/-- The fields that are not null. -/
def given (fields : List (String × Json)) : List (String × Json) :=
  fields.filter fun f => !f.2.isNull

/-- What a value means for the parameters of a request: null means none, and a field that is null
is no field. -/
def meaning : Json → Json
  | .null => .object []
  | .object fields => .object (given fields)
  | v => v

end Json

namespace RenderRequest

/-- The value of a field of a request; a field that is missing is null. -/
def valueAt (name : String) (fields : List (String × Json)) : Json :=
  (Fields.get? name fields).getD .null

/-- The fields of two requests that mean the same: they have the same template, their parameters
have the same meaning, and their modes resolve to one. -/
structure Alike (v w : List (String × Json)) : Prop where
  /-- The templates are the same. -/
  template_eq : valueAt "template" v = valueAt "template" w
  /-- The parameters mean the same. -/
  params_eq : (valueAt "params" v).meaning = (valueAt "params" w).meaning
  /-- The modes are the same. -/
  mode_eq : Mode.ofName? (modeOf (valueAt "mode" v)) = Mode.ofName? (modeOf (valueAt "mode" w))

end RenderRequest

/-! ### Parameters with the same meaning -/

namespace Value

/-- Null is no value: it is not truthy, -/
theorem any_truthy_filter (v : Option Json) :
    ((v.filter fun v => !v.isNull).bind ofJson?).any truthy = (v.bind ofJson?).any truthy := by
  obtain _ | v := v
  · rfl
  · cases v <;> rfl

/-- and has no text. -/
theorem map_text_filter (v : Option Json) :
    (((v.filter fun v => !v.isNull).bind ofJson?).map text).getD "" =
      ((v.bind ofJson?).map text).getD "" := by
  obtain _ | v := v
  · rfl
  · cases v <;> rfl

end Value

namespace Params

open Json (given)

variable {fs gs : List (String × Json)} {vs us : List (String × Value)}

theorem scalars_cons {k : String} {v : Json} {value : Value} (h : Value.ofJson? v = some value) :
    scalars ((k, v) :: fs) = ((k, value) :: ·) <$> scalars fs := by
  rw [scalars, h]
  rfl

theorem scalars_eq_error_iff {m : Misfit} :
    scalars fs = .error m ↔ m = .notAScalar ∧ ∃ f ∈ fs, Value.ofJson? f.2 = none := by
  induction fs with
  | nil => simp [scalars]
  | cons f fs ih =>
    obtain ⟨k, v⟩ := f
    rw [List.exists_mem_cons_iff]
    cases hv : Value.ofJson? v with
    | none => simp [scalars, hv, eq_comm]
    | some value =>
      rw [scalars_cons hv, map_eq_error_iff, ih]
      simp only [reduceCtorEq, false_or]

/-- Null is a scalar. -/
theorem exists_mem_given_iff :
    (∃ f ∈ given fs, Value.ofJson? f.2 = none) ↔ ∃ f ∈ fs, Value.ofJson? f.2 = none := by
  constructor
  · rintro ⟨f, hf, hv⟩
    exact ⟨f, List.mem_of_mem_filter hf, hv⟩
  · rintro ⟨⟨k, v⟩, hf, hv⟩
    refine ⟨(k, v), List.mem_filter.2 ⟨hf, ?_⟩, hv⟩
    cases v with
    | null => cases hv
    | _ => rfl

theorem scalars_eq_ok_iff_cons {k : String} {v : Json} :
    scalars ((k, v) :: fs) = .ok vs ↔
      ∃ value us, Value.ofJson? v = some value ∧ scalars fs = .ok us ∧ vs = (k, value) :: us := by
  cases hv : Value.ofJson? v with
  | none => simp [scalars, hv]
  | some value =>
    rw [scalars_cons hv, map_eq_ok_iff]
    constructor
    · rintro ⟨us, hus, rfl⟩
      exact ⟨value, us, rfl, hus, rfl⟩
    · rintro ⟨_, us, ⟨⟩, hus, rfl⟩
      exact ⟨us, hus, rfl⟩

theorem names_scalars (h : scalars fs = .ok vs) : vs.map Prod.fst = fs.map Prod.fst := by
  induction fs generalizing vs with
  | nil =>
    cases h
    rfl
  | cons f fs ih =>
    obtain ⟨value, us, -, hus, rfl⟩ := scalars_eq_ok_iff_cons.1 h
    rw [List.map_cons, List.map_cons, ih hus]

theorem get?_scalars (h : scalars fs = .ok vs) (name : String) :
    Fields.get? name vs = (Fields.get? name fs).bind Value.ofJson? := by
  induction fs generalizing vs with
  | nil =>
    cases h
    rfl
  | cons f fs ih =>
    obtain ⟨k, v⟩ := f
    obtain ⟨value, us, hv, hus, rfl⟩ := scalars_eq_ok_iff_cons.1 h
    rw [Fields.get?, Fields.get?]
    split
    · exact hv.symm
    · exact ih hus

/-- What is found is what stands in the fields. -/
theorem get?_ofList_scalars (hf : Fields.Sorted fs) (h : scalars fs = .ok vs) (name : String) :
    (ofList vs).get? name = (Fields.get? name fs).bind Value.ofJson? := by
  have hsorted : Fields.Sorted vs := by
    rw [Fields.Sorted, ← List.pairwise_map, names_scalars h, List.pairwise_map]
    exact hf
  rw [get?, ofList, hsorted.get?_ofList, get?_scalars h]

/-- **Parameters that mean the same agree on every name.** -/
theorem agreeAt_of_given_eq (hf : Fields.Sorted fs) (hg : Fields.Sorted gs)
    (h : given fs = given gs) (hv : scalars fs = .ok vs) (hu : scalars gs = .ok us)
    (name : String) : (ofList vs).AgreeAt (ofList us) name := by
  have hfound : (Fields.get? name fs).filter (fun v => !v.isNull) =
      (Fields.get? name gs).filter fun v => !v.isNull := by
    rw [← hf.get?_filter (fun f => !f.2.isNull), ← hg.get?_filter (fun f => !f.2.isNull)]
    exact congrArg (Fields.get? name) h
  constructor
  · rw [truthy, truthy, get?_ofList_scalars hf hv, get?_ofList_scalars hg hu,
      ← Value.any_truthy_filter, hfound, Value.any_truthy_filter]
  · rw [text, text, get?_ofList_scalars hf hv, get?_ofList_scalars hg hu,
      ← Value.map_text_filter, hfound, Value.map_text_filter]

/-- Fields that mean the same are all scalars or not, and agree if they are. -/
theorem scalars_bothGive (hf : Fields.Sorted fs) (hg : Fields.Sorted gs)
    (h : given fs = given gs) :
    BothGive (fun vs us => ∀ name, (ofList vs).AgreeAt (ofList us) name)
      (scalars fs) (scalars gs) := by
  have hmisfit (m : Misfit) : scalars fs = .error m ↔ scalars gs = .error m := by
    rw [scalars_eq_error_iff, scalars_eq_error_iff, ← exists_mem_given_iff, h,
      exists_mem_given_iff]
  cases hv : scalars fs with
  | error m =>
    rw [(hmisfit m).1 hv]
    exact .error m
  | ok vs =>
    cases hu : scalars gs with
    | error m => exact absurd ((hmisfit m).2 hu) (by simp [hv])
    | ok us => exact .ok (agreeAt_of_given_eq hf hg h hv hu)

end Params

/-! ### Reading two requests -/

namespace RenderRequest

open Json (given)

/-- The fields of the parameters; none if these are missing, and nothing if they are no object. -/
def paramFields? : Json → Option (List (String × Json))
  | .null => some []
  | .object fields => some fields
  | _ => none

theorem meaning_of_some {v : Json} {fs : List (String × Json)} (h : paramFields? v = some fs) :
    v.meaning = .object (given fs) := by
  cases v <;> cases h <;> rfl

theorem meaning_of_none {v : Json} (h : paramFields? v = none) : v.meaning = v := by
  cases v with
  | null | object => cases h
  | _ => rfl

theorem paramsOf_of_some {v : Json} {fs : List (String × Json)} (h : paramFields? v = some fs) :
    (·.getD .empty) <$> paramsOf v = Params.ofList <$> Params.scalars fs := by
  cases v with
  | null =>
    cases h
    rfl
  | object fields =>
    cases h
    have hof : paramsOf (.object fs) = some <$> Params.ofList <$> Params.scalars fs := rfl
    rw [hof]
    cases Params.scalars fs <;> rfl
  | _ => cases h

theorem paramsOf_of_none {v : Json} (h : paramFields? v = none) :
    paramsOf v = .error (.notAnObject v) := by
  cases v with
  | null | object => cases h
  | _ => rfl

/-- The fields of a value that is an object stand in order. -/
def Ordered (v : Json) : Prop := ∀ fs, paramFields? v = some fs → Fields.Sorted fs

theorem ordered_valueAt {fields : List (String × Json)} (h : (Json.object fields).IsRead)
    (name : String) : Ordered (valueAt name fields) := by
  intro fs hfs
  unfold valueAt at hfs
  cases hv : Fields.get? name fields with
  | none =>
    rw [hv] at hfs
    cases hfs
    exact .nil
  | some v =>
    rw [hv] at hfs
    have hread : v.IsRead := h.object.2 _ (Fields.mem_of_get? hv)
    cases v with
    | null =>
      cases hfs
      exact .nil
    | object fields =>
      cases hfs
      exact hread.object.1
    | _ => cases hfs

/-- The parameters of two requests agree on every name. -/
def ParamsAgree (p q : Option Params) : Prop :=
  ∀ name, (p.getD .empty).AgreeAt (q.getD .empty) name

theorem paramsOf_bothGive {a b : Json} (ha : Ordered a) (hb : Ordered b)
    (h : a.meaning = b.meaning) : BothGive ParamsAgree (paramsOf a) (paramsOf b) := by
  cases hfs : paramFields? a with
  | none =>
    cases hgs : paramFields? b with
    | none =>
      rw [meaning_of_none hfs, meaning_of_none hgs] at h
      subst h
      rw [paramsOf_of_none hfs]
      exact .error _
    | some gs =>
      rw [meaning_of_none hfs, meaning_of_some hgs] at h
      subst h
      cases hfs
  | some fs =>
    cases hgs : paramFields? b with
    | none =>
      rw [meaning_of_some hfs, meaning_of_none hgs] at h
      subst h
      cases hgs
    | some gs =>
      rw [meaning_of_some hfs, meaning_of_some hgs, Json.object.injEq] at h
      have hmap : BothGive (fun p q => ∀ name, p.AgreeAt q name)
          (Params.ofList <$> Params.scalars fs) (Params.ofList <$> Params.scalars gs) :=
        bothGive_map_iff.2 (Params.scalars_bothGive (ha fs hfs) (hb gs hgs) h)
      rw [← paramsOf_of_some hfs, ← paramsOf_of_some hgs] at hmap
      have hparams := bothGive_map_iff.1 hmap
      exact hparams

/-- Two requests that a render cannot tell apart. -/
structure Agree (r s : RenderRequest) : Prop where
  /-- The templates are the same. -/
  template_eq : r.template = s.template
  /-- The parameters agree on every name. -/
  params : ParamsAgree r.params s.params
  /-- The modes are the same. -/
  mode_eq : Mode.ofName? r.mode = Mode.ofName? s.mode

theorem ofFields_bothGive {v w : List (String × Json)} (hv : (Json.object v).IsRead)
    (hw : (Json.object w).IsRead) (h : Alike v w) :
    BothGive Agree (ofFields v) (ofFields w) := by
  have hparams := paramsOf_bothGive (ordered_valueAt hv "params") (ordered_valueAt hw "params")
    h.params_eq
  refine hparams.bind fun p q hpq => ?_
  change BothGive Agree (templateOf (valueAt "template" v) >>= _)
    (templateOf (valueAt "template" w) >>= _)
  rw [h.template_eq]
  cases templateOf (valueAt "template" w) with
  | error m => exact .error m
  | ok template => exact .ok ⟨rfl, hpq, h.mode_eq⟩

/-- **Requests that mean the same are refused for the same reason, or cannot be told apart.** -/
theorem read_bothGive {body body' : String} {v w : List (String × Json)}
    (hv : Json.read body = .ok (.object v)) (hw : Json.read body' = .ok (.object w))
    (h : Alike v w) : BothGive Agree (read body) (read body') := by
  have hread {body : String} {v : List (String × Json)} (hv : Json.read body = .ok (.object v)) :
      read body = (ofFields v).mapError .invalidField := by
    rw [read, hv]
    rfl
  rw [hread hv, hread hw]
  exact (ofFields_bothGive (Json.isRead_of_read hv) (Json.isRead_of_read hw) h).mapError _

end RenderRequest

/-! ### Answering two requests -/

namespace Engine

variable {e : Engine} {files : FileTree}

/-- A render takes no notice of what requests that agree differ in. -/
theorem renderRequest_eq_of_agree {r s : RenderRequest} (h : r.Agree s) (cache : Option Cache) :
    e.renderRequest files cache r = e.renderRequest files cache s := by
  let job (r : RenderRequest) : Render.Job :=
    ⟨r.params.getD .empty, Mode.ofName? r.mode, e.source.resolver files, e.config.limits⟩
  have htwin : Render.Job.Twin (· = ·) (job r) (job s) :=
    { resolver_eq := rfl
      limits_eq := rfl
      truthy_eq := fun name => (h.params name).truthy_eq
      text := fun name => congrArg₂ Mode.substitute h.mode_eq (h.params name).text_eq }
  cases hs : s.template with
  | none =>
    rw [renderRequest_of_missing hs, renderRequest_of_missing (h.template_eq.trans hs)]
  | some template =>
    rw [renderRequest_of_template hs, renderRequest_of_template (h.template_eq.trans hs)]
    exact Render.template_eq_of_twin htwin cache template

/-- The cache answers right for the render that a request asks for, if it asks for one. -/
def CacheFitsBody (e : Engine) (files : FileTree) (cache : Option Cache) (body : String) : Prop :=
  ∀ r template, RenderRequest.read body = .ok r → r.template = some template →
    e.CacheFits files cache template (r.params.getD .empty) (Mode.ofName? r.mode)

theorem CacheFitsBody.handle_fst {cache : Option Cache} {body : String}
    (h : e.CacheFitsBody files cache body) :
    (e.handle files cache body).1 = (e.handle files none body).1 := by
  unfold handle
  cases hread : RenderRequest.read body with
  | error error => rfl
  | ok r =>
    refine congrArg Response.ofResult ?_
    cases ht : r.template with
    | none => rw [renderRequest_of_missing ht, renderRequest_of_missing ht]
    | some template =>
      rw [renderRequest_of_template ht, renderRequest_of_template ht]
      exact (h r template hread ht).render_fst

/-- The cache that an engine starts with answers right whatever the request is. -/
theorem cacheFitsBody_newCache (body : String) : e.CacheFitsBody files e.newCache body :=
  fun r template _ _ => cacheFits_newCache template (r.params.getD .empty) (Mode.ofName? r.mode)

theorem cacheFitsBody_none (body : String) : e.CacheFitsBody files none body :=
  fun _ _ _ _ => cacheFits_none

/-- **Only the template, the parameters and the mode of a request matter, and only for what they
mean.** Two requests that mean the same are answered alike by an engine, which also has the same
cache after either; and it answers them alike from different caches too, as long as these answer
right. -/
theorem handle_eq_of_alike {body body' : String} {v w : List (String × Json)}
    (hv : Json.read body = .ok (.object v)) (hw : Json.read body' = .ok (.object w))
    (h : RenderRequest.Alike v w) :
    (∀ cache, e.handle files cache body = e.handle files cache body') ∧
      ∀ cache cache', e.CacheFitsBody files cache body → e.CacheFitsBody files cache' body' →
        (e.handle files cache body).1 = (e.handle files cache' body').1 := by
  have hsame (cache : Option Cache) : e.handle files cache body = e.handle files cache body' := by
    have hread := RenderRequest.read_bothGive hv hw h
    unfold handle
    generalize RenderRequest.read body = x, RenderRequest.read body' = y at hread ⊢
    cases hread with
    | error error => rfl
    | ok hagree => simp only [renderRequest_eq_of_agree hagree]
  refine ⟨hsame, fun cache cache' hc hc' => ?_⟩
  rw [hc.handle_fst, hc'.handle_fst, hsame]

/-- A parameter that is null, a field that does not matter and another way to write the mode, and
an engine that keeps what it parsed. -/
theorem handle_eq_of_alike_null_param :
    let body := "\x7b\"params\":\x7b\"a\":\"<\",\"b\":null\x7d,\"mode\":\"HTML\"," ++
      "\"template\":\"[[$a]][[$b]]\"\x7d"
    let body' := "\x7b\"template\":\"[[$a]][[$b]]\",\"params\":\x7b\"a\":\"<\"\x7d," ++
      "\"id\":7,\"mode\":\"html\"\x7d"
    let v := [("mode", .string "HTML"), ("params", .object [("a", .string "<"), ("b", .null)]),
      ("template", .string "[[$a]][[$b]]")]
    let w := [("id", .number (.int 7)), ("mode", .string "html"),
      ("params", .object [("a", .string "<")]), ("template", .string "[[$a]][[$b]]")]
    let e : Engine := .withResolver .standard .none
    Json.read body = .ok (.object v) ∧ Json.read body' = .ok (.object w) ∧
      RenderRequest.Alike v w ∧ (e.handle ⟨[]⟩ none body).1 = .success "&lt;" ∧
      (∀ cache, e.handle ⟨[]⟩ cache body = e.handle ⟨[]⟩ cache body') ∧
      (e.handle ⟨[]⟩ none body).1 = (e.handle ⟨[]⟩ e.newCache body').1 := by
  intro body body' v w e
  have hv : Json.read body = .ok (.object v) := by
    dsimp only [body, v]
    cbv
  have hw : Json.read body' = .ok (.object w) := by
    dsimp only [body', w]
    cbv
  have h : RenderRequest.Alike v w := ⟨rfl, rfl, by decide⟩
  have hsuccess : (e.handle ⟨[]⟩ none body).1 = .success "&lt;" := by
    dsimp only [e, body]
    cbv
  obtain ⟨hsame, hfits⟩ := @handle_eq_of_alike e ⟨[]⟩ body body' v w hv hw h
  exact ⟨hv, hw, h, hsuccess, hsame,
    hfits none e.newCache (cacheFitsBody_none body) (cacheFitsBody_newCache body')⟩

end Engine

end Stencil
