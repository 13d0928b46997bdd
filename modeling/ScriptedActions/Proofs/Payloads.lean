import ScriptedActions.Proofs.Dispatch

/-!
# Payloads that cannot be used

A payload is kept as a text, and it is read twice when a request is prepared: once with the message
as a whole, to make it a value, and once by itself, to get the inputs of the script. Both readings
are of the same text, so the first of them fails if any does (`Request.prepare_of_payload`). A
payload that cannot be read is therefore an error of the binding `rpc`; an error of the binding
`request` says that the payload was read and is of the wrong kind.

Neither depends on the catalog: the schema of the action is looked up only for a payload that can
be used.
-/

set_option autoImplicit false

namespace ScriptedActions

namespace Json

/-- Whether a value has the members of an object; `null` stands for an object without any. -/
inductive IsInputs : Json → Table Json → Prop
  | object (ms : Table Json) : IsInputs (.object ms) ms
  | null : IsInputs .null []

end Json

open Json (IsInputs)

namespace Request

variable {r : Request} {v : Json}

/-- The request as a value has the payload as its member `data`, so there is such a value only if
the payload can be read. -/
theorem toJson_of_unreadable {e : Json.Error} (h : Json.parse r.data = .error e) :
    r.toJson = .error e := by
  simp only [toJson, h]
  rfl

theorem toJson_of_readable (h : Json.parse r.data = .ok v) : ∃ rpc, r.toJson = .ok rpc := by
  simp only [toJson, h]
  exact ⟨_, rfl⟩

theorem payload_of_inputs {ms : Table Json} (h : Json.parse r.data = .ok v) (hv : IsInputs v ms) :
    r.payload = .ok ms := by
  unfold payload
  rw [h]
  cases hv <;> rfl

theorem payload_of_other (h : Json.parse r.data = .ok v) (hv : ∀ ms, ¬ IsInputs v ms) :
    r.payload = .error ⟨"expected a JSON object, got " ++ kind v⟩ := by
  unfold payload
  rw [h]
  cases v with
  | object ms => exact absurd (IsInputs.object ms) (hv ms)
  | null => exact absurd IsInputs.null (hv [])
  | _ => rfl

/-- **What a payload makes of the preparation of a request**, whatever the catalog is. A payload
that cannot be read is an error of the binding `rpc`; one that is read and is no object is an error
of the binding `request`; and of any other payload no binding is an error. -/
theorem prepare_of_payload (r : Request) (c : Catalog) :
    (∃ e, Json.parse r.data = .error e ∧ r.prepare c = .error (.binding "rpc" e.message)) ∨
    (∃ v, Json.parse r.data = .ok v ∧ (∀ ms, ¬ IsInputs v ms) ∧
      r.prepare c = .error (.binding "request"
        ("invalid request payload: expected a JSON object, got " ++ kind v))) ∨
    (∃ v ms, Json.parse r.data = .ok v ∧ IsInputs v ms ∧
      (r.prepare c = .error (.schemaLookupFailure r.agent r.action) ∨
        ∃ schema rpc, r.prepare c = .ok (schema, ⟨rpc, ms, schema.reply⟩))) := by
  cases hparse : Json.parse r.data with
  | error e =>
    left
    refine ⟨e, rfl, ?_⟩
    simp only [prepare, values, toJson_of_unreadable hparse]
  | ok v =>
    right
    obtain ⟨rpc, hrpc⟩ := toJson_of_readable hparse
    by_cases hv : ∃ ms, IsInputs v ms
    · right
      obtain ⟨ms, hms⟩ := hv
      refine ⟨v, ms, rfl, hms, ?_⟩
      simp only [prepare, values, hrpc, payload_of_inputs hparse hms]
      cases c.lookup r.agent r.action with
      | none => exact .inl rfl
      | some schema => exact .inr ⟨schema, rpc, rfl⟩
    · left
      have hother : ∀ ms, ¬ IsInputs v ms := not_exists.mp hv
      refine ⟨v, rfl, hother, ?_⟩
      simp only [prepare, values, hrpc, payload_of_other hparse hother]
      rfl

end Request

end ScriptedActions
