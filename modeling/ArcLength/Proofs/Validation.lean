import ArcLength.Path.State
import ArcLength.Proofs.Results
import ArcLength.Proofs.SignedZero
import ArcLength.Service.Request

/-!
# Validated requests

Values of a body stand for numbers, and the fields of a body may ask for a length, for a place or for
samples. The checks of a request pass exactly the bodies whose fields ask for what it is about, and
the request then holds what they give.
-/

namespace ArcLength.Service

/-- The number that a value stands for. A whole number that is too large stands for none. -/
inductive Value.Reads : Value → Float → Prop where
  | integer {n : Int} (hfinite : (Binary64.ofDecimal (numeralOf n)).isFinite = true) :
      Reads (.integer n) (Binary64.ofDecimal (numeralOf n))
  | number (d : Decimal) : Reads (.number d) (Binary64.ofDecimal d)
  | bool (b : Bool) : Reads (.bool b) (if b then 1 else 0)
  | text {s : String} {literal : Literal} (hread : readNumber? s = some literal) :
      Reads (.text s) literal.value

/-- The whole number that a value stands for. -/
inductive Value.Counts : Value → Int → Prop where
  | integer (n : Int) : Counts (.integer n) n
  | number {d : Decimal} {n : Int} (hwhole : wholeOf (Binary64.ofDecimal d) = .ok n) :
      Counts (.number d) n
  | bool (b : Bool) : Counts (.bool b) (if b then 1 else 0)
  | text {s : String} {n : Int} (hread : readInteger s = .ok n) : Counts (.text s) n

namespace Fields

end Fields

section Checks

variable {β γ : Type} {fields : Fields} {name : String} {check : Value → Checked β} {b : β} {c : γ}
  {v : Validated β} {w : Validated γ}

theorem bind_ite_eq_ok_iff {A B : Type} {x : Checked A} {c : A → Prop} [DecidablePred c]
    {f : A → B} {fault : Fault} {b : B} :
    (x >>= fun a => if c a then pure (f a) else throw fault) = .ok b ↔
      ∃ a, x = .ok a ∧ c a ∧ f a = b := by
  cases x with
  | error fault' => exact iff_of_false nofun (by rintro ⟨a, ha, -⟩; cases ha)
  | ok a =>
      change (if c a then Except.ok (f a) else Except.error fault) = .ok b ↔ _
      by_cases hc : c a
      · simp [hc]
      · simp [hc]

end Checks

theorem isFinite_iff {a : Float} : Service.isFinite a = true ↔ a.isFinite = true := by
  constructor
  · intro h
    change a.toModel.unpack.isFinite = true
    rw [Service.isFinite, Binary64.sub_eq] at h
    -- an infinite difference or none is not equal to zero
    cases ha : a.toModel.unpack with
    | notANumber =>
        rw [ha] at h
        revert h
        decide +kernel
    | infinity sign =>
        rw [ha] at h
        revert h
        cases sign <;> decide +kernel
    | zero sign => rfl
    | finite sign mantissa exponent hpos => rfl
  · intro h
    rw [Service.isFinite]
    rcases Binary64.eq_zero_of_isZero (Binary64.isZero_sub_self h) with hzero | hzero <;>
      rw [hzero] <;> decide +kernel

theorem checkDistance_eq_ok_iff {v : Value} {a : Float} :
    checkDistance v = .ok a ↔ checkNumber v = .ok a ∧ isFinite a = true ∧ 0 ≤ a := by
  rw [checkDistance]
  cases checkNumber (α := Float) v with
  | error fault => simp [bind, Except.bind]
  | ok a' =>
      simp only [bind, Except.bind, Except.ok.injEq]
      cases hfinite : isFinite a' with
      | false =>
          refine iff_of_false (fun h => by cases h) ?_
          rintro ⟨rfl, hfinite', -⟩
          simp [hfinite] at hfinite'
      | true =>
          by_cases hle : 0 ≤ a'
          · simp only [Bool.not_true, Bool.false_eq_true, if_false, if_pos hle]
            constructor
            · intro h
              cases h
              exact ⟨rfl, hfinite, hle⟩
            · rintro ⟨rfl, -, -⟩
              rfl
          · simp only [Bool.not_true, Bool.false_eq_true, if_false, if_neg hle]
            refine iff_of_false (fun h => by cases h) ?_
            rintro ⟨rfl, -, hle'⟩
            exact hle hle'

theorem checkTolerance_eq_ok_iff {v : Value} {t : Option Float} (hv : v ≠ .null) :
    checkTolerance v = .ok t ↔ ∃ a, checkNumber v = .ok a ∧ 0 < a ∧ some a = t := by
  have hcheck : checkTolerance v =
      checkNumber v >>= fun a : Float => if 0 < a then pure (some a) else throw .notPositive := by
    cases v with
    | null => exact absurd rfl hv
    | _ => rfl
  rw [hcheck, bind_ite_eq_ok_iff]

theorem checkCount_eq_ok_iff {v : Value} {n : Int} :
    checkCount v = .ok n ↔ checkInteger v = .ok n ∧ 2 ≤ n := by
  rw [checkCount, bind_ite_eq_ok_iff]
  constructor
  · rintro ⟨n', hinteger, hle, rfl⟩
    exact ⟨hinteger, hle⟩
  · rintro ⟨hinteger, hle⟩
    exact ⟨n, hinteger, hle, rfl⟩

section Requests

variable {fields : Fields} {d : String} {distance tolerance : Float} {count : Int} {t : Option Float}

end Requests

end ArcLength.Service
