import ArcLength.Proofs.Approach
import ArcLength.Proofs.Significand

/-!
# Comparing zeros

Zeros of either sign compare alike with every double, and so does what is like a double up to the
sign of zero. From zero up, the greater of zero and a value is like that value.
-/

namespace ArcLength.Binary64

open Float.Model

variable {x x' y y' : Float}

theorem lt_iff_compare :
    x < y ↔ x.toModel.unpack.compare y.toModel.unpack = some .lt := by
  change (decide (x.toModel < y.toModel)) = true ↔ _
  rw [decide_eq_true_iff]
  exact beq_iff_eq

theorem le_iff_compare :
    x ≤ y ↔ (x.toModel.unpack.compare y.toModel.unpack).any Ordering.isLE = true := by
  change (decide (x.toModel ≤ y.toModel)) = true ↔ _
  exact decide_eq_true_iff

theorem Alike.compare_eq (hx : Alike x x') (hy : Alike y y') :
    x.toModel.unpack.compare y.toModel.unpack = x'.toModel.unpack.compare y'.toModel.unpack := by
  have hleft : x.toModel.unpack.compare y.toModel.unpack =
      x'.toModel.unpack.compare y.toModel.unpack := by
    rcases hx with rfl | ⟨⟨sign, hz⟩, ⟨sign', hz'⟩⟩
    · rfl
    · rw [hz, hz']
      cases y.toModel.unpack with
      | infinity s => cases s <;> rfl
      | finite s m e hm => cases s <;> rfl
      | _ => rfl
  have hright : x'.toModel.unpack.compare y.toModel.unpack =
      x'.toModel.unpack.compare y'.toModel.unpack := by
    rcases hy with rfl | ⟨⟨sign, hz⟩, ⟨sign', hz'⟩⟩
    · rfl
    · rw [hz, hz']
      cases x'.toModel.unpack with
      | infinity s => cases s <;> rfl
      | finite s m e hm => cases s <;> rfl
      | _ => rfl
  exact hleft.trans hright

theorem Alike.lt_iff (hx : Alike x x') (hy : Alike y y') : x < y ↔ x' < y' := by
  rw [lt_iff_compare, lt_iff_compare, hx.compare_eq hy]

theorem Alike.le_iff (hx : Alike x x') (hy : Alike y y') : x ≤ y ↔ x' ≤ y' := by
  rw [le_iff_compare, le_iff_compare, hx.compare_eq hy]

theorem Alike.interchangeable (h : Alike x y) : Interchangeable x y :=
  ⟨fun length => h.lt_iff (refl length), fun length => h.le_iff (refl length)⟩

theorem Alike.max (hx : Alike x x') (hy : Alike y y') :
    Alike (Scalar.max x y) (Scalar.max x' y') := by
  rw [Scalar.max, Scalar.max]
  by_cases h : x < y
  · rw [if_pos h, if_pos ((hx.lt_iff hy).mp h)]
    exact hy
  · rw [if_neg h, if_neg (mt (hx.lt_iff hy).mpr h)]
    exact hx

theorem alike_mul_of_isZero_left {z z' : Float} (y : Float) (hz : IsZero z) (hz' : IsZero z') :
    Alike (z * y) (z' * y) := by
  obtain ⟨sign, hz⟩ := hz
  obtain ⟨sign', hz'⟩ := hz'
  rw [mul_eq, mul_eq, hz, hz']
  cases y.toModel.unpack with
  | zero s => exact Or.inr ⟨isZero_pack _, isZero_pack _⟩
  | finite s m e hm => exact Or.inr ⟨isZero_pack _, isZero_pack _⟩
  | _ => exact Or.inl rfl

theorem alike_mul_of_isZero_right {z z' : Float} (x : Float) (hz : IsZero z) (hz' : IsZero z') :
    Alike (x * z) (x * z') := by
  obtain ⟨sign, hz⟩ := hz
  obtain ⟨sign', hz'⟩ := hz'
  rw [mul_eq, mul_eq, hz, hz']
  cases x.toModel.unpack with
  | zero s => exact Or.inr ⟨isZero_pack _, isZero_pack _⟩
  | finite s m e hm => exact Or.inr ⟨isZero_pack _, isZero_pack _⟩
  | _ => exact Or.inl rfl

theorem Alike.mul (hx : Alike x x') (hy : Alike y y') : Alike (x * y) (x' * y') :=
  hx.map₂ alike_mul_of_isZero_left alike_mul_of_isZero_right hy

end ArcLength.Binary64
