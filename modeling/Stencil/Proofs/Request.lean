import Stencil.Proofs.Engine.Requests
import Stencil.Proofs.Json.RoundTrip

/-!
# Requests are read back

A request is written as a JSON object with three fields, where null stands for what is missing. It
is read in another way than it is written: the fields are put in order and looked up by name, null
counts as missing, and every value of the parameters is taken for the scalar that it looks like.
All the same a request that is written comes back as it was (`RenderRequest.read_text_toJson`), as
long as its numbers are integers of 64 bits.
-/

namespace Stencil

/-- The value is read back as it is written: a number is an integer of 64 bits, signed or not. -/
def Value.IsExact : Value → Prop
  | .number (.int n) => -(Number.minSigned : Int) ≤ n ∧ n ≤ Number.maxWord
  | .number (.float _) => False
  | _ => True

theorem Value.IsExact.canonical {v : Value} (h : v.IsExact) (depth : Nat) :
    v.toJson.Canonical depth := by
  cases v with
  | null => exact .null
  | bool b => exact .bool b
  | string s => exact .string s
  | number n =>
    cases n with
    | int n => exact .int h.1 h.2
    | float x => exact h.elim

namespace Params

/-- The parameters stand in the order of their names, each name once, and their values are read back
as they are written. -/
structure IsExact (p : Params) : Prop where
  /-- They stand in order. -/
  sorted : Fields.Sorted p.fields
  /-- The values are exact. -/
  values : ∀ f ∈ p.fields, f.2.IsExact

theorem scalars_toJson (fields : List (String × Value)) :
    scalars (fields.map fun (k, v) => (k, v.toJson)) = .ok fields := by
  induction fields with
  | nil => rfl
  | cons f fields ih =>
    obtain ⟨k, v⟩ := f
    rw [List.map_cons, scalars_cons v.ofJson?_toJson, ih]
    rfl

/-- Parameters in order are those that their JSON stands for. -/
theorem ofJson_toJson {p : Params} (h : Fields.Sorted p.fields) : ofJson p.toJson = .ok p := by
  have hof : ofList p.fields = p := congrArg Params.mk h.ofList_eq
  rw [toJson, ofJson, scalars_toJson]
  exact congrArg Except.ok hof

theorem IsExact.canonical {p : Params} (h : p.IsExact) (depth : Nat) :
    p.toJson.Canonical (depth + 1) := by
  refine .object ?_ ?_
  · exact List.pairwise_map.2 h.sorted
  · intro f hf
    obtain ⟨g, hg, rfl⟩ := List.mem_map.1 hf
    exact (h.values g hg).canonical depth

end Params

namespace RenderRequest

variable {r : RenderRequest}

/-- What an optional text is written as. -/
theorem canonical_string (s : Option String) (depth : Nat) :
    ((s.map Json.string).getD .null).Canonical depth := by
  cases s with
  | none => exact .null
  | some s => exact .string s

theorem templateOf_toJson (s : Option String) :
    templateOf ((s.map Json.string).getD .null) = .ok s := by
  cases s <;> rfl

theorem modeOf_toJson (s : Option String) : modeOf ((s.map Json.string).getD .null) = s := by
  cases s <;> rfl

theorem paramsOf_toJson {params : Option Params} (h : ∀ p ∈ params, Fields.Sorted p.fields) :
    paramsOf ((params.map Params.toJson).getD .null) = .ok params := by
  cases params with
  | none => rfl
  | some p =>
    have hof : paramsOf p.toJson = (Params.ofJson p.toJson).map some := rfl
    rw [Option.map_some, Option.getD_some, hof, Params.ofJson_toJson (h p rfl)]
    rfl

/-- The values that a request is written with. -/
theorem canonical_fields (h : ∀ p ∈ r.params, p.IsExact) (depth : Nat) :
    ∀ f ∈ [("template", (r.template.map Json.string).getD .null),
        ("params", (r.params.map Params.toJson).getD .null),
        ("mode", (r.mode.map Json.string).getD .null)], Json.Canonical (depth + 1) f.2 := by
  have hparams : ((r.params.map Params.toJson).getD .null).Canonical (depth + 1) := by
    cases hp : r.params with
    | none => exact .null
    | some p => exact (h p hp).canonical depth
  exact List.forall_mem_cons.2 ⟨canonical_string r.template _,
    List.forall_mem_cons.2 ⟨hparams, List.forall_mem_singleton.2 (canonical_string r.mode _)⟩⟩

/-- The request is found again in its fields, which stand in the order of their names. -/
theorem ofFields_toJson (h : ∀ p ∈ r.params, Fields.Sorted p.fields) :
    ofFields [("mode", (r.mode.map Json.string).getD .null),
      ("params", (r.params.map Params.toJson).getD .null),
      ("template", (r.template.map Json.string).getD .null)] = .ok r := by
  have htemplate := templateOf_toJson r.template
  have hparams := paramsOf_toJson h
  have hmode := modeOf_toJson r.mode
  simp [ofFields, Fields.get?, htemplate, hparams, hmode]

/-- **A request is read back from its text**, with its template, parameters and mode present or
missing as they were. -/
theorem read_text_toJson (h : ∀ p ∈ r.params, p.IsExact) : read r.toJson.text = .ok r := by
  have hread : Json.read r.toJson.text = _ :=
    Json.read_text_object (canonical_fields h (Json.depthLimit - 3))
  have hof := ofFields_toJson fun p hp => (h p hp).sorted
  rw [read, hread]
  exact congrArg (·.mapError RequestError.invalidField) hof

/-- Strings that need escapes or look like other values, and integers at both ends of their
range. -/
theorem read_text_toJson_at_limits :
    ∃ r : RenderRequest, r.template = some "\x22\\\x00\n\x7fé😀" ∧ r.mode = none ∧
      r.params = some ⟨[("", .null), ("a", .string "null"),
        ("b", .number (.int (-9223372036854775808))),
        ("c", .number (.int 18446744073709551615))]⟩ ∧
      read r.toJson.text = .ok r := by
  refine ⟨⟨_, _, _⟩, rfl, rfl, rfl, read_text_toJson ?_⟩
  rintro p ⟨⟩
  refine ⟨?_, ?_⟩
  · unfold Fields.Sorted
    decide
  · simp [Value.IsExact, Number.minSigned, Number.maxWord]

end RenderRequest

end Stencil
