import ArcLength.Proofs.Anchoring
import ArcLength.Service

/-!
# Responses that come from path data

Each endpoint but one reads path data from a body that passes its checks, and answers by a measure of
the path that it gives. What comes before that is a refusal that the service foresees, and of the
failures of path data all but a close before any move.
-/

namespace ArcLength.Service

open PathData (ClosesBeforeMove Token ofData_eq_unanchoredClose_iff)

theorem Endpoint.ofTarget?_path (e : Endpoint) : Endpoint.ofTarget? e.path = some e := by
  cases e <;> decide +kernel

theorem Endpoint.allows_method (e : Endpoint) : e.allows e.method = true := by
  cases e <;> decide +kernel

variable {α : Type} [Scalar α] {d : String} {measure : Path α → Option (Answer α)}

theorem handle_path (budget : Nat) (body : Option Value) (e : Endpoint) :
    handle (α := α) budget e.method e.path body = e.respond budget body := by
  rw [handle, e.ofTarget?_path]
  simp only [e.allows_method, if_true]

/-- The path data that an endpoint reads from a body, if the body passes the checks. -/
def Endpoint.dataRead? (α : Type) [Scalar α] (body : Option Value) : Endpoint → Option String
  | .health => none
  | .length => (LengthRequest.ofBody (α := α) body).toOption.map LengthRequest.d
  | .pointAtLength => (PlaceRequest.ofBody (α := α) body).toOption.map PlaceRequest.d
  | .normalAngleAtLength => (PlaceRequest.ofBody (α := α) body).toOption.map PlaceRequest.d
  | .sample =>
    (SampleRequest.ofBody (α := α) body).toOption.bind fun r =>
      if (maximalSamples : Int) < r.count then none else some r.d

section Answers

variable {budget : Nat}

theorem answerWith_within : answerWith (.within budget) d measure =
    match readPath d with
    | .ok p => (measure p).map .ok
    | .error r => some (.error r) := by
  simp only [answerWith, Measuring.within, Option.bind_eq_bind, Option.bind_some]
  cases readPath (α := α) d with
  | ok p => exact Option.map_eq_bind.symm
  | error r => rfl

theorem answerWith_eq_internalError_iff :
    answerWith (.within budget) d measure = some (.error .internalError) ↔
      ClosesBeforeMove α (Token.ofText d) := by
  rw [answerWith_within, readPath, ← ofData_eq_unanchoredClose_iff]
  cases Path.ofData (α := α) d with
  | ok p => simp
  | error f => cases f <;> simp

theorem answerWith_of_rejected {r : PathData.Rejection}
    (hdata : Path.ofData (α := α) d = .error (.rejected r)) :
    answerWith (.within budget) d measure = some (.error (.rejected d r)) := by
  simp [answerWith_within, readPath, hdata]

theorem status_of_answerWith {response : Response α}
    (h : answerWith (.within budget) d measure = some response) :
    status response = 200 ∨ status response = 422 ∨ response = .error .internalError := by
  rw [answerWith_within] at h
  split at h
  · obtain ⟨answer, -, rfl⟩ := Option.map_eq_some_iff.mp h
    exact Or.inl rfl
  · next r hread =>
      cases h
      rw [readPath] at hread
      split at hread
      · cases hread
      · cases hread
        exact Or.inr (Or.inl rfl)
      · cases hread
        exact Or.inr (Or.inr rfl)

end Answers

/-- Responses that come from path data, if any is read, and else are foreseen. -/
def Reads (budget : Nat) (d? : Option String) (response? : Option (Response α)) : Prop :=
  match d? with
  | some d => ∃ measure, response? = answerWith (.within budget) d measure
  | none => ∃ response, response? = some response ∧
      (status response = 200 ∨ status response = 422)

namespace Reads

variable {ρ : Type} {budget : Nat} {request : Validated ρ} {handler : ρ → Option (Response α)}
  {d? : Option String} {response? : Option (Response α)} {response : Response α}

theorem withRequest_bind {data : ρ → Option String} (h : ∀ r, Reads budget (data r) (handler r)) :
    Reads budget (request.toOption.bind data) (withRequest request handler) := by
  cases request with
  | error issues => exact ⟨_, rfl, Or.inr rfl⟩
  | ok r => exact h r

theorem withRequest_map {data : ρ → String} (h : ∀ r, Reads budget (some (data r)) (handler r)) :
    Reads budget (request.toOption.map data) (withRequest request handler) := by
  cases request with
  | error issues => exact ⟨_, rfl, Or.inr rfl⟩
  | ok r => exact h r

theorem respond (budget : Nat) (body : Option Value) (e : Endpoint) :
    Reads budget (e.dataRead? α body) (e.respond (α := α) budget body) := by
  cases e with
  | health => exact ⟨_, rfl, Or.inl rfl⟩
  | length => exact withRequest_map fun _ => ⟨_, rfl⟩
  | pointAtLength => exact withRequest_map fun _ => ⟨_, rfl⟩
  | normalAngleAtLength => exact withRequest_map fun _ => ⟨_, rfl⟩
  | sample =>
      refine withRequest_bind fun r => ?_
      rw [Service.sample]
      split
      · exact ⟨_, rfl, Or.inr rfl⟩
      · exact ⟨_, rfl⟩

theorem eq_internalError_iff (h : Reads budget d? response?) :
    response? = some (.error .internalError) ↔
      ∃ d, d? = some d ∧ ClosesBeforeMove α (Token.ofText d) := by
  cases d? with
  | some d =>
      obtain ⟨measure, rfl⟩ := h
      simp [answerWith_eq_internalError_iff]
  | none =>
      obtain ⟨response, rfl, hstatus⟩ := h
      refine iff_of_false ?_ (by simp)
      intro heq
      cases heq
      simp [status, Refusal.status] at hstatus

theorem status_of_eq_some (h : Reads budget d? response?) (hresponse : response? = some response) :
    status response = 200 ∨ status response = 422 ∨ response = .error .internalError := by
  cases d? with
  | some d =>
      obtain ⟨measure, rfl⟩ := h
      exact status_of_answerWith hresponse
  | none =>
      obtain ⟨_, rfl, hstatus⟩ := h
      cases hresponse
      tauto

end Reads

end ArcLength.Service
