import Mathlib
import ArcLength.Point

/-!
# The exact plane

The reals as scalars: exact arithmetic, Euclidean distance, and an `atan2` with values in `(-π, π]`.
A point is read as a complex number, and distances as norms of differences.
-/

namespace ArcLength

noncomputable instance : Scalar ℝ where
  decLt := Real.decidableLT
  decLe := Real.decidableLE
  le_of_lt := le_of_lt
  ofDecimal d := (if d.negative then -1 else 1) * d.digits * 10 ^ d.exponent
  hypot x y := √(x ^ 2 + y ^ 2)
  sqrt := Real.sqrt
  sin := Real.sin
  cos := Real.cos
  tan := Real.tan
  acos := Real.arccos
  atan2 y x := Complex.arg ⟨x, y⟩
  pi := Real.pi
  ceil x := ⌈x⌉₊

theorem scalar_max (a b : ℝ) : Scalar.max a b = max a b := by
  unfold Scalar.max
  split
  · rename_i hlt
    exact (max_eq_right (le_of_lt hlt)).symm
  · rename_i hle
    exact (max_eq_left (not_lt.mp hle)).symm

theorem scalar_abs (a : ℝ) : Scalar.abs a = |a| := by
  unfold Scalar.abs
  split
  · rename_i hneg
    exact (abs_of_neg hneg).symm
  · rename_i hnonneg
    exact (abs_of_nonneg (not_lt.mp hnonneg)).symm

namespace Point

/-- The complex number with the coordinates of a point. -/
def toComplex (p : Point ℝ) : ℂ := ⟨p.x, p.y⟩

theorem toComplex_injective : Function.Injective toComplex := by
  intro p q h
  exact Point.ext (congrArg Complex.re h) (congrArg Complex.im h)

theorem toComplex_midpoint (p q : Point ℝ) :
    (p.midpoint q).toComplex = (p.toComplex + q.toComplex) / 2 := by
  apply Complex.ext <;> simp [toComplex, midpoint, Scalar.half]

theorem distance_eq_norm (p q : Point ℝ) : p.distance q = ‖q.toComplex - p.toComplex‖ := by
  rw [Complex.norm_def, Complex.normSq_apply]
  simp only [toComplex, Complex.sub_re, Complex.sub_im, ← sq]
  rfl

theorem distance_eq_of_sq {p q : Point ℝ} {d : ℝ} (hd : 0 ≤ d)
    (h : (q.x - p.x) ^ 2 + (q.y - p.y) ^ 2 = d ^ 2) : p.distance q = d := by
  change √((q.x - p.x) ^ 2 + (q.y - p.y) ^ 2) = d
  rw [h, Real.sqrt_sq hd]

theorem distance_nonneg (p q : Point ℝ) : 0 ≤ p.distance q := by
  rw [distance_eq_norm]
  exact norm_nonneg _

@[simp]
theorem distance_self (p : Point ℝ) : p.distance p = 0 := by
  rw [distance_eq_norm, sub_self, norm_zero]

theorem distance_comm (p q : Point ℝ) : p.distance q = q.distance p := by
  rw [distance_eq_norm, distance_eq_norm, norm_sub_rev]

theorem distance_triangle (p q r : Point ℝ) : p.distance r ≤ p.distance q + q.distance r := by
  simp only [distance_eq_norm]
  calc ‖r.toComplex - p.toComplex‖
      = ‖(q.toComplex - p.toComplex) + (r.toComplex - q.toComplex)‖ := by congr 1; ring
    _ ≤ ‖q.toComplex - p.toComplex‖ + ‖r.toComplex - q.toComplex‖ := norm_add_le _ _

theorem eq_of_distance_eq_zero {p q : Point ℝ} (h : p.distance q = 0) : p = q := by
  rw [distance_eq_norm, norm_eq_zero, sub_eq_zero] at h
  exact toComplex_injective h.symm

end Point

end ArcLength
