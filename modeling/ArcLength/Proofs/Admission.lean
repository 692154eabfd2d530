import ArcLength.Proofs.Calls
import ArcLength.Proofs.Validation

/-!
# What gets past the checks

Each endpoint takes some fields of a body, and each field says which values it may have. A body with
fields that break this is refused with one issue for each of them, before anything is called. What
the calls of any other request are made with comes from values that their fields may have.
-/

namespace ArcLength.Service

/-- A field of a body: whether it may be left out, and the values that it may have. -/
structure Field where
  name : String
  isRequired : Bool
  admits : Value → Bool

namespace Field

def data : Field where
  name := "d"
  isRequired := true
  admits
    | .text _ => true
    | _ => false

def tolerance : Field where
  name := "tolerance"
  isRequired := false
  admits
    | .null => true
    | v => (checkNumber v).toOption.any fun a : Float => decide (0 < a)

def distance : Field where
  name := "distance"
  isRequired := true
  admits v := (checkNumber v).toOption.any fun a : Float => a.isFinite && decide (0 ≤ a)

def count : Field where
  name := "count"
  isRequired := true
  admits v := (checkInteger v).toOption.any fun n => decide (2 ≤ n)

/-- Whether a field is missing that must be there, or has a value that it may not have. -/
def offends (fields : Fields) (f : Field) : Bool :=
  match fields.lookup f.name with
  | none => f.isRequired
  | some v => !f.admits v

/-- The fields among the given ones that are wrong, or the body as a whole if it has no fields. -/
def offenders (fs : List Field) : Option Value → List (Option String)
  | some (.record fields) => (fs.filter (offends fields)).map fun f => some f.name
  | _ => [none]

end Field

/-- The fields that an endpoint takes, in the order of their names. -/
def Endpoint.fields : Endpoint → List Field
  | .health => []
  | .length => [.data, .tolerance]
  | .pointAtLength => [.data, .distance, .tolerance]
  | .normalAngleAtLength => [.data, .distance, .tolerance]
  | .sample => [.count, .data, .tolerance]

/-- What checking gives: a value that `Good` holds of if nothing is wrong, and else one issue for
each of the offenders. -/
def Meets {β : Type} (v : Validated β) (offenders : List (Option String)) (Good : β → Prop) : Prop :=
  match v with
  | .ok b => offenders = [] ∧ Good b
  | .error issues => offenders ≠ [] ∧ issues.map Issue.field = offenders

namespace Meets

variable {β γ : Type} {v : Validated β} {w : Validated γ}
  {offenders offenders' : List (Option String)} {Good : β → Prop} {Good' : γ → Prop}

theorem both (hv : Meets v offenders Good) (hw : Meets w offenders' Good') :
    Meets (Validated.both v w) (offenders ++ offenders') fun r => Good r.1 ∧ Good' r.2 := by
  cases v with
  | ok b =>
      obtain ⟨rfl, hb⟩ := hv
      cases w with
      | ok c =>
          obtain ⟨rfl, hc⟩ := hw
          exact ⟨rfl, hb, hc⟩
      | error issues => exact hw
  | error issues =>
      obtain ⟨hne, hissues⟩ := hv
      cases w with
      | ok c =>
          obtain ⟨rfl, -⟩ := hw
          rw [List.append_nil]
          exact ⟨hne, hissues⟩
      | error issues' =>
          refine ⟨by simp [hne], ?_⟩
          rw [List.map_append, hissues, hw.2]

theorem mono {Good' : β → Prop} (hv : Meets v offenders Good) (h : ∀ b, Good b → Good' b) :
    Meets v offenders Good' := by
  cases v with
  | ok b => exact ⟨hv.1, h b hv.2⟩
  | error issues => exact hv

theorem bind_pure {f : β → γ} (hv : Meets v offenders fun b => Good' (f b)) :
    Meets (v >>= fun b => pure (f b)) offenders Good' := by
  cases v with
  | ok b => exact hv
  | error issues => exact hv

end Meets

section Fields

variable {β : Type} {f : Field} {fields : Fields}

theorem Field.offenders_singleton (f : Field) (fields : Fields) :
    Field.offenders [f] (some (.record fields)) =
      if f.offends fields then [some f.name] else [] := by
  rw [Field.offenders, List.filter_singleton]
  cases f.offends fields <;> rfl

/-- A field that is there is wrong if its check fails, and that is its one issue. -/
theorem meets_field {check : Value → Checked β} {v : Value}
    (hlookup : fields.lookup f.name = some v)
    (hadmits : f.admits v = true ↔ ∃ b, check v = .ok b) :
    Meets ((check v).mapError fun fault => [⟨some f.name, fault⟩])
      (Field.offenders [f] (some (.record fields))) fun b => check v = .ok b := by
  have hoffends : f.offends fields = !f.admits v := by rw [Field.offends, hlookup]
  rw [Field.offenders_singleton, hoffends]
  cases hcheck : check v with
  | ok b =>
      rw [hadmits.mpr ⟨b, hcheck⟩]
      exact ⟨rfl, rfl⟩
  | error fault =>
      have hv : f.admits v = false := by
        rw [← Bool.not_eq_true, hadmits, hcheck]
        rintro ⟨b, hb⟩
        cases hb
      rw [hv]
      exact ⟨by simp, rfl⟩

theorem meets_required {check : Value → Checked β} (hf : f.isRequired = true)
    (hadmits : ∀ v, f.admits v = true ↔ ∃ b, check v = .ok b) :
    Meets (required fields f.name check) (Field.offenders [f] (some (.record fields)))
      fun b => ∃ v, fields.lookup f.name = some v ∧ check v = .ok b := by
  rw [required]
  cases hlookup : fields.lookup f.name with
  | none =>
      rw [Field.offenders_singleton, Field.offends, hlookup]
      simp [hf, Meets]
  | some v => exact (meets_field hlookup (hadmits v)).mono fun b hb => ⟨v, rfl, hb⟩

theorem meets_optional {check : Value → Checked (Option β)} (hf : f.isRequired = false)
    (hadmits : ∀ v, f.admits v = true ↔ ∃ b, check v = .ok b) :
    Meets (optional fields f.name check) (Field.offenders [f] (some (.record fields)))
      fun b => (fields.lookup f.name = none ∧ b = none) ∨
        ∃ v, fields.lookup f.name = some v ∧ check v = .ok b := by
  rw [optional]
  cases hlookup : fields.lookup f.name with
  | none =>
      rw [Field.offenders_singleton, Field.offends, hlookup]
      simp [hf, Meets]
  | some v => exact (meets_field hlookup (hadmits v)).mono fun b hb => Or.inr ⟨v, rfl, hb⟩

end Fields

theorem any_toOption_iff {A : Type} {x : Checked A} {p : A → Bool} :
    x.toOption.any p = true ↔ ∃ a, x = .ok a ∧ p a = true := by
  cases x with
  | error fault => simp [Except.toOption]
  | ok a => simp [Except.toOption]

namespace Field

theorem data_admits_iff {v : Value} : data.admits v = true ↔ ∃ d, checkText v = .ok d := by
  cases v <;> simp [data, checkText]

theorem tolerance_admits_iff {v : Value} :
    tolerance.admits v = true ↔ ∃ t : Option Float, checkTolerance v = .ok t := by
  by_cases hv : v = .null
  · subst hv
    exact iff_of_true rfl ⟨none, rfl⟩
  · have hadmits : tolerance.admits v =
        (checkNumber v).toOption.any fun a : Float => decide (0 < a) := by
      simp only [tolerance]
    simp only [hadmits, any_toOption_iff, checkTolerance_eq_ok_iff hv, decide_eq_true_eq]
    constructor
    · rintro ⟨a, hnumber, ha⟩
      exact ⟨some a, a, hnumber, ha, rfl⟩
    · rintro ⟨-, a, hnumber, ha, -⟩
      exact ⟨a, hnumber, ha⟩

theorem distance_admits_iff {v : Value} :
    distance.admits v = true ↔ ∃ a : Float, checkDistance v = .ok a := by
  simp only [distance, any_toOption_iff, checkDistance_eq_ok_iff, isFinite_iff, Bool.and_eq_true,
    decide_eq_true_eq]

theorem count_admits_iff {v : Value} : count.admits v = true ↔ ∃ n, checkCount v = .ok n := by
  simp only [count, any_toOption_iff, checkCount_eq_ok_iff, decide_eq_true_eq]

end Field

section Requests

variable (fields : Fields)

theorem meets_data : Meets (required fields "d" checkText)
    (Field.offenders [.data] (some (.record fields))) fun d =>
      fields.lookup "d" = some (.text d) := by
  refine (meets_required rfl fun v => Field.data_admits_iff).mono ?_
  rintro d ⟨v, hlookup, hcheck⟩
  cases v with
  | text s =>
      cases hcheck
      exact hlookup
  | _ => cases hcheck

/-- A tolerance above zero, the default one if the body gives none. -/
def HoldsTolerance (t : Option Float) : Prop :=
  0 < t.getD defaultTolerance ∧
    (fields.lookup "tolerance" = none ∨ fields.lookup "tolerance" = some .null → t = none)

theorem defaultTolerance_eq : (defaultTolerance : Float) = 1e-5 := by decide +kernel

theorem defaultTolerance_pos : (0 : Float) < defaultTolerance := by decide +kernel

theorem meets_tolerance : Meets (optional fields "tolerance" checkTolerance)
    (Field.offenders [.tolerance] (some (.record fields))) (HoldsTolerance fields) := by
  refine (meets_optional rfl fun v => Field.tolerance_admits_iff).mono ?_
  rintro t (⟨-, rfl⟩ | ⟨v, hlookup, hcheck⟩)
  · exact ⟨defaultTolerance_pos, fun _ => rfl⟩
  · by_cases hv : v = .null
    · subst hv
      cases hcheck
      exact ⟨defaultTolerance_pos, fun _ => rfl⟩
    · obtain ⟨a, -, ha, rfl⟩ := (checkTolerance_eq_ok_iff hv).mp hcheck
      have hgiven : fields.lookup "tolerance" = some v := hlookup
      exact ⟨ha, by simp [hgiven, hv]⟩

theorem meets_distance : Meets (required fields "distance" checkDistance)
    (Field.offenders [.distance] (some (.record fields))) fun a : Float =>
      a.isFinite = true ∧ 0 ≤ a := by
  refine (meets_required rfl fun v => Field.distance_admits_iff).mono ?_
  rintro a ⟨v, -, hcheck⟩
  obtain ⟨-, hfinite, hle⟩ := checkDistance_eq_ok_iff.mp hcheck
  exact ⟨isFinite_iff.mp hfinite, hle⟩

theorem meets_count : Meets (required fields "count" checkCount)
    (Field.offenders [.count] (some (.record fields))) fun n =>
      2 ≤ n ∧ ∃ v, fields.lookup "count" = some v ∧ checkInteger v = .ok n := by
  refine (meets_required rfl fun v => Field.count_admits_iff).mono ?_
  rintro n ⟨v, hlookup, hcheck⟩
  obtain ⟨hinteger, hle⟩ := checkCount_eq_ok_iff.mp hcheck
  exact ⟨hle, v, hlookup, hinteger⟩

end Requests

theorem Field.offenders_cons_cons (f g : Field) (fs : List Field) (fields : Fields) :
    Field.offenders (f :: g :: fs) (some (.record fields)) =
      Field.offenders [f] (some (.record fields)) ++
        Field.offenders (g :: fs) (some (.record fields)) := by
  change Field.offenders ([f] ++ g :: fs) _ = _
  simp only [Field.offenders, List.filter_append, List.map_append]

theorem meets_body {β : Type} {check : Fields → Validated β} {fs : List Field}
    {Good : Fields → β → Prop}
    (h : ∀ fields, Meets (check fields) (Field.offenders fs (some (.record fields))) (Good fields))
    (body : Option Value) :
    Meets (fieldsOf body >>= check) (Field.offenders fs body) fun b =>
      ∃ fields, body = some (.record fields) ∧ Good fields b := by
  cases body with
  | none => exact ⟨by simp [Field.offenders], rfl⟩
  | some v =>
      cases v with
      | record fields => exact (h fields).mono fun b hb => ⟨fields, rfl, hb⟩
      | _ => exact ⟨by simp [Field.offenders], rfl⟩

theorem LengthRequest.meets (body : Option Value) :
    Meets (LengthRequest.ofBody body) (Field.offenders [.data, .tolerance] body) fun r =>
      ∃ fields, body = some (.record fields) ∧
        fields.lookup "d" = some (.text r.d) ∧ HoldsTolerance fields r.tolerance := by
  refine meets_body (fun fields => ?_) body
  rw [Field.offenders_cons_cons]
  exact Meets.bind_pure (f := fun b : String × Option Float => LengthRequest.mk b.1 b.2)
    ((meets_data fields).both (meets_tolerance fields))

theorem PlaceRequest.meets (body : Option Value) :
    Meets (PlaceRequest.ofBody body) (Field.offenders [.data, .distance, .tolerance] body) fun r =>
      ∃ fields, body = some (.record fields) ∧ fields.lookup "d" = some (.text r.d) ∧
        (r.distance.isFinite = true ∧ 0 ≤ r.distance) ∧ HoldsTolerance fields r.tolerance := by
  refine meets_body (fun fields => ?_) body
  rw [Field.offenders_cons_cons, Field.offenders_cons_cons]
  exact Meets.bind_pure
    (f := fun b : String × Float × Option Float => PlaceRequest.mk b.1 b.2.1 b.2.2)
    ((meets_data fields).both ((meets_distance fields).both (meets_tolerance fields)))

theorem SampleRequest.meets (body : Option Value) :
    Meets (SampleRequest.ofBody body) (Field.offenders [.count, .data, .tolerance] body) fun r =>
      ∃ fields, body = some (.record fields) ∧
        (2 ≤ r.count ∧ ∃ v, fields.lookup "count" = some v ∧ checkInteger v = .ok r.count) ∧
        fields.lookup "d" = some (.text r.d) ∧ HoldsTolerance fields r.tolerance := by
  refine meets_body (fun fields => ?_) body
  rw [Field.offenders_cons_cons, Field.offenders_cons_cons]
  exact Meets.bind_pure
    (f := fun b : Int × String × Option Float => SampleRequest.mk b.1 b.2.1 b.2.2)
    ((meets_count fields).both ((meets_data fields).both (meets_tolerance fields)))

theorem HoldsTolerance.getD {fields : Fields} {t : Option Float} (h : HoldsTolerance fields t) :
    0 < t.getD defaultTolerance ∧
      (fields.lookup "tolerance" = none ∨ fields.lookup "tolerance" = some .null →
        t.getD defaultTolerance = 1e-5) := by
  refine ⟨h.1, fun hnone => ?_⟩
  rw [h.2 hnone, Option.getD_none, defaultTolerance_eq]

section Permits

variable {budget : Nat} {fields : Fields}

end Permits

end ArcLength.Service
