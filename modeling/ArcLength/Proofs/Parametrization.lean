import Mathlib
import ArcLength.Proofs.Flatness

/-!
# Curves by their parameter

A Bézier curve is the path of a point as a parameter goes from zero to one. Each half of a split
runs along one half of the interval. Over a part of the interval the point moves by the steps of the
control polygon, each with a weight that only grows, so the curve is no longer than its polygon.
-/

namespace ArcLength

open Set

/-- What moves no further than a real function grows varies no more than that function grows. -/
theorem eVariationOn_le_of_norm_sub_le {f : ℝ → ℂ} {g : ℝ → ℝ} {a b : ℝ} (hab : a ≤ b)
    (h : ∀ s t, a ≤ s → s ≤ t → t ≤ b → ‖f t - f s‖ ≤ g t - g s) :
    eVariationOn f (Icc a b) ≤ ENNReal.ofReal (g b - g a) := by
  have hmono : MonotoneOn g (Icc a b) := by
    intro s hs t ht hst
    have hstep := h s t hs.1 hst ht.2
    linarith [norm_nonneg (f t - f s)]
  have hedist (s t : ℝ) (hs : a ≤ s) (hst : s ≤ t) (ht : t ≤ b) :
      edist (f t) (f s) ≤ edist (g t) (g s) := by
    rw [edist_dist, edist_dist, dist_eq_norm, Real.dist_eq]
    apply ENNReal.ofReal_le_ofReal
    exact (h s t hs hst ht).trans (le_abs_self _)
  calc eVariationOn f (Icc a b)
      ≤ eVariationOn g (Icc a b) := by
        refine iSup_mono fun p => Finset.sum_le_sum fun i _ => ?_
        obtain ⟨n, u, hu, hmem⟩ := p
        exact hedist (u i) (u (i + 1)) (hmem i).1 (hu (Nat.le_succ i)) (hmem (i + 1)).2
    _ = ENNReal.ofReal (g b - g a) := by
        have heq := hmono.eVariationOn_eq (left_mem_Icc.mpr hab) (right_mem_Icc.mpr hab)
        rwa [inter_self] at heq

/-- A sum of steps whose weights grow from zero to one varies by no more than the steps are long. -/
theorem eVariationOn_le_of_weights {n : ℕ} {f : ℝ → ℂ} (p : ℂ) (w : Fin n → ℝ → ℝ) (v : Fin n → ℂ)
    (hf : ∀ t, f t = p + ∑ i, w i t • v i) (hmono : ∀ i, MonotoneOn (w i) (Icc 0 1))
    (hzero : ∀ i, w i 0 = 0) (hone : ∀ i, w i 1 = 1) :
    eVariationOn f (Icc 0 1) ≤ ENNReal.ofReal (∑ i, ‖v i‖) := by
  have hstep : ∀ s t, 0 ≤ s → s ≤ t → t ≤ 1 →
      ‖f t - f s‖ ≤ ∑ i, w i t * ‖v i‖ - ∑ i, w i s * ‖v i‖ := by
    intro s t hs hst ht
    calc ‖f t - f s‖ = ‖∑ i, (w i t - w i s) • v i‖ := by
          rw [hf, hf, add_sub_add_left_eq_sub, ← Finset.sum_sub_distrib]
          simp only [sub_smul]
      _ ≤ ∑ i, ‖(w i t - w i s) • v i‖ := norm_sum_le _ _
      _ = ∑ i, (w i t - w i s) * ‖v i‖ := by
          refine Finset.sum_congr rfl fun i _ => ?_
          have hgrows : w i s ≤ w i t := hmono i ⟨hs, hst.trans ht⟩ ⟨hs.trans hst, ht⟩ hst
          rw [norm_smul, Real.norm_of_nonneg (sub_nonneg.mpr hgrows)]
      _ = ∑ i, w i t * ‖v i‖ - ∑ i, w i s * ‖v i‖ := by
          rw [← Finset.sum_sub_distrib]
          simp only [sub_mul]
  have hvaries := eVariationOn_le_of_norm_sub_le (f := f) (g := fun t => ∑ i, w i t * ‖v i‖)
    zero_le_one hstep
  simpa [hzero, hone] using hvaries

namespace Curve

/-- A curve of the exact plane as the path of a point. Each half is the path over one half of the
interval. Neither the path nor the polygons of the halves are longer than the polygon. -/
class Parametric (κ : Type) [Curve κ ℝ] extends Planar κ where
  pointAt : κ → ℝ → Point ℝ
  pointAt_zero : ∀ c : κ, pointAt c 0 = start c
  pointAt_one : ∀ c : κ, pointAt c 1 = finish c
  pointAt_left : ∀ (c : κ) (t : ℝ), pointAt (split c).1 t = pointAt c (t / 2)
  pointAt_right : ∀ (c : κ) (t : ℝ), pointAt (split c).2 t = pointAt c ((1 + t) / 2)
  variation_le : ∀ c : κ, eVariationOn (fun t => (pointAt c t).toComplex) (Icc 0 1) ≤
    ENNReal.ofReal (polygonLength c)
  polygonLength_halves_le : ∀ c : κ,
    polygonLength (split c).1 + polygonLength (split c).2 ≤ polygonLength c

variable {κ : Type} [Curve κ ℝ] [Parametric κ]

/-- The curve as a function into the complex plane. -/
def trace (c : κ) (t : ℝ) : ℂ := (Parametric.pointAt c t).toComplex

/-- The length of a curve is the supremum of the lengths of its inscribed polygons. -/
noncomputable def arcLength (c : κ) : ENNReal := eVariationOn (trace c) (Icc 0 1)

theorem arcLength_le_polygonLength (c : κ) : arcLength c ≤ ENNReal.ofReal (polygonLength c) :=
  Parametric.variation_le c

theorem chord_le_arcLength (c : κ) : ENNReal.ofReal (chord c) ≤ arcLength c := by
  have hends := eVariationOn.edist_le (trace c) (s := Icc 0 1)
    (right_mem_Icc.mpr zero_le_one) (left_mem_Icc.mpr zero_le_one)
  rwa [trace, trace, Parametric.pointAt_one, Parametric.pointAt_zero, edist_dist, dist_eq_norm,
    ← Point.distance_eq_norm] at hends

/-- A curve that runs along a part of another is as long as that part. -/
theorem arcLength_eq_of_trace {c d : κ} {a b : ℝ} (hab : a < b)
    (h : ∀ t, trace d t = trace c ((b - a) * t + a)) :
    arcLength d = eVariationOn (trace c) (Icc a b) := by
  have hmono : MonotoneOn (fun t : ℝ => (b - a) * t + a) (Icc 0 1) := by
    intro s _ t _ hst
    have hscale := mul_le_mul_of_nonneg_left hst (sub_nonneg.mpr hab.le)
    dsimp only
    linarith
  have himage : (fun t : ℝ => (b - a) * t + a) '' Icc 0 1 = Icc a b := by
    rw [image_affine_Icc' (sub_pos.mpr hab), mul_zero, zero_add, mul_one, sub_add_cancel]
  have hcomp : trace d = trace c ∘ fun t => (b - a) * t + a := funext h
  rw [arcLength, hcomp, eVariationOn.comp_eq_of_monotoneOn _ _ hmono, himage]

theorem arcLength_halves (c : κ) :
    arcLength (split c).1 + arcLength (split c).2 = arcLength c := by
  have hleft : arcLength (split c).1 = eVariationOn (trace c) (Icc 0 (1 / 2)) := by
    refine arcLength_eq_of_trace (by norm_num) fun t => ?_
    rw [trace, trace, Parametric.pointAt_left]
    congr 2
    ring
  have hright : arcLength (split c).2 = eVariationOn (trace c) (Icc (1 / 2) 1) := by
    refine arcLength_eq_of_trace (by norm_num) fun t => ?_
    rw [trace, trace, Parametric.pointAt_right]
    congr 2
    ring
  have hsum := eVariationOn.Icc_add_Icc (trace c) (s := univ) (a := 0) (b := 1 / 2) (c := 1)
    (by norm_num) (by norm_num) (mem_univ _)
  simp only [univ_inter] at hsum
  rw [hleft, hright, hsum, arcLength]

end Curve

namespace Point

variable (p q r s : Point ℝ)

theorem distance_midpoint_right : p.distance (p.midpoint q) = p.distance q / 2 := by
  rw [distance_eq_norm, distance_eq_norm, toComplex_midpoint]
  calc ‖(p.toComplex + q.toComplex) / 2 - p.toComplex‖
      = ‖(q.toComplex - p.toComplex) / 2‖ := by congr 1; ring
    _ = ‖q.toComplex - p.toComplex‖ / 2 := by rw [norm_div, RCLike.norm_ofNat]

theorem distance_midpoint_left : (p.midpoint q).distance q = p.distance q / 2 := by
  rw [distance_eq_norm, distance_eq_norm, toComplex_midpoint]
  calc ‖q.toComplex - (p.toComplex + q.toComplex) / 2‖
      = ‖(q.toComplex - p.toComplex) / 2‖ := by congr 1; ring
    _ = ‖q.toComplex - p.toComplex‖ / 2 := by rw [norm_div, RCLike.norm_ofNat]

/-- The midpoints of two sides of a triangle are half as far apart as the ends of the third. -/
theorem distance_midpoint_midpoint : (p.midpoint q).distance (q.midpoint r) = p.distance r / 2 := by
  rw [distance_eq_norm, distance_eq_norm, toComplex_midpoint, toComplex_midpoint]
  calc ‖(q.toComplex + r.toComplex) / 2 - (p.toComplex + q.toComplex) / 2‖
      = ‖(r.toComplex - p.toComplex) / 2‖ := by congr 1; ring
    _ = ‖r.toComplex - p.toComplex‖ / 2 := by rw [norm_div, RCLike.norm_ofNat]

theorem distance_midpoint_midpoint_le :
    (p.midpoint q).distance (r.midpoint s) ≤ (p.distance r + q.distance s) / 2 := by
  rw [distance_eq_norm, distance_eq_norm, distance_eq_norm, toComplex_midpoint, toComplex_midpoint]
  calc ‖(r.toComplex + s.toComplex) / 2 - (p.toComplex + q.toComplex) / 2‖
      = ‖((r.toComplex - p.toComplex) + (s.toComplex - q.toComplex)) / 2‖ := by congr 1; ring
    _ = ‖(r.toComplex - p.toComplex) + (s.toComplex - q.toComplex)‖ / 2 := by
        rw [norm_div, RCLike.norm_ofNat]
    _ ≤ (‖r.toComplex - p.toComplex‖ + ‖s.toComplex - q.toComplex‖) / 2 := by
        gcongr
        exact norm_add_le _ _

end Point

namespace QuadraticCurve

variable (c : QuadraticCurve ℝ)

/-- The point of the curve at a parameter, by de Casteljau's construction. -/
def pointAt (t : ℝ) : Point ℝ :=
  ⟨(1 - t) * ((1 - t) * c.start.x + t * c.control.x) +
      t * ((1 - t) * c.control.x + t * c.finish.x),
    (1 - t) * ((1 - t) * c.start.y + t * c.control.y) +
      t * ((1 - t) * c.control.y + t * c.finish.y)⟩

theorem toComplex_pointAt (t : ℝ) : (c.pointAt t).toComplex = c.start.toComplex +
    ((2 * t - t ^ 2) • (c.control.toComplex - c.start.toComplex) +
      t ^ 2 • (c.finish.toComplex - c.control.toComplex)) := by
  apply Complex.ext
  · simp only [pointAt, Point.toComplex, Complex.add_re, Complex.sub_re, Complex.smul_re,
      smul_eq_mul]
    ring
  · simp only [pointAt, Point.toComplex, Complex.add_im, Complex.sub_im, Complex.smul_im,
      smul_eq_mul]
    ring

theorem variation_le :
    eVariationOn (fun t => (c.pointAt t).toComplex) (Icc 0 1) ≤ ENNReal.ofReal c.polygonLength := by
  have hgrows : MonotoneOn (fun t : ℝ => 2 * t - t ^ 2) (Icc 0 1) := by
    intro s hs t ht hst
    dsimp only
    nlinarith [hs.2, ht.2]
  have hsquare : MonotoneOn (fun t : ℝ => t ^ 2) (Icc 0 1) :=
    fun s hs t _ hst => pow_le_pow_left₀ hs.1 hst 2
  have hweights := eVariationOn_le_of_weights (f := fun t => (c.pointAt t).toComplex)
    c.start.toComplex ![fun t => 2 * t - t ^ 2, fun t => t ^ 2]
    ![c.control.toComplex - c.start.toComplex, c.finish.toComplex - c.control.toComplex]
    (by simpa [Fin.sum_univ_two] using c.toComplex_pointAt)
    (by simpa [Fin.forall_fin_two] using ⟨hgrows, hsquare⟩)
    (by simp [Fin.forall_fin_two]) (by norm_num [Fin.forall_fin_two])
  simpa [Fin.sum_univ_two, polygonLength_eq_norm] using hweights

theorem pointAt_zero : c.pointAt 0 = c.start := by
  apply Point.ext <;> simp [pointAt]

theorem pointAt_one : c.pointAt 1 = c.finish := by
  apply Point.ext <;> simp [pointAt]

theorem pointAt_left (t : ℝ) : c.split.1.pointAt t = c.pointAt (t / 2) := by
  apply Point.ext <;> simp [pointAt, split, Point.midpoint, Scalar.half] <;> ring

theorem pointAt_right (t : ℝ) : c.split.2.pointAt t = c.pointAt ((1 + t) / 2) := by
  apply Point.ext <;> simp [pointAt, split, Point.midpoint, Scalar.half] <;> ring

theorem polygonLength_halves_le :
    c.split.1.polygonLength + c.split.2.polygonLength ≤ c.polygonLength := by
  have hchord := Point.distance_triangle c.start c.control c.finish
  simp only [polygonLength, split, Point.distance_midpoint_right, Point.distance_midpoint_left,
    Point.distance_midpoint_midpoint]
  linarith

noncomputable instance : Curve.Parametric (QuadraticCurve ℝ) where
  pointAt := pointAt
  pointAt_zero := pointAt_zero
  pointAt_one := pointAt_one
  pointAt_left := pointAt_left
  pointAt_right := pointAt_right
  variation_le := variation_le
  polygonLength_halves_le := polygonLength_halves_le

end QuadraticCurve

namespace CubicCurve

variable (c : CubicCurve ℝ)

/-- The point of the curve at a parameter, in Bernstein's form. -/
def pointAt (t : ℝ) : Point ℝ :=
  ⟨(1 - t) ^ 3 * c.start.x + 3 * (1 - t) ^ 2 * t * c.control1.x +
      3 * (1 - t) * t ^ 2 * c.control2.x + t ^ 3 * c.finish.x,
    (1 - t) ^ 3 * c.start.y + 3 * (1 - t) ^ 2 * t * c.control1.y +
      3 * (1 - t) * t ^ 2 * c.control2.y + t ^ 3 * c.finish.y⟩

theorem toComplex_pointAt (t : ℝ) : (c.pointAt t).toComplex = c.start.toComplex +
    ((1 - (1 - t) ^ 3) • (c.control1.toComplex - c.start.toComplex) +
      (3 * t ^ 2 - 2 * t ^ 3) • (c.control2.toComplex - c.control1.toComplex) +
      t ^ 3 • (c.finish.toComplex - c.control2.toComplex)) := by
  apply Complex.ext
  · simp only [pointAt, Point.toComplex, Complex.add_re, Complex.sub_re, Complex.smul_re,
      smul_eq_mul]
    ring
  · simp only [pointAt, Point.toComplex, Complex.add_im, Complex.sub_im, Complex.smul_im,
      smul_eq_mul]
    ring

theorem variation_le :
    eVariationOn (fun t => (c.pointAt t).toComplex) (Icc 0 1) ≤ ENNReal.ofReal c.polygonLength := by
  have hfirst : MonotoneOn (fun t : ℝ => 1 - (1 - t) ^ 3) (Icc 0 1) := by
    intro s _ t ht hst
    have hcube : (1 - t) ^ 3 ≤ (1 - s) ^ 3 :=
      pow_le_pow_left₀ (sub_nonneg.mpr ht.2) (by linarith) 3
    dsimp only
    linarith
  have hsecond : MonotoneOn (fun t : ℝ => 3 * t ^ 2 - 2 * t ^ 3) (Icc 0 1) := by
    intro s hs t ht hst
    have hfactor : 0 ≤ (t - s) * (3 * (t + s) - 2 * (t ^ 2 + t * s + s ^ 2)) := by
      refine mul_nonneg (sub_nonneg.mpr hst) ?_
      nlinarith [hs.1, hs.2, ht.1, ht.2]
    dsimp only
    linarith
  have hthird : MonotoneOn (fun t : ℝ => t ^ 3) (Icc 0 1) :=
    fun s hs t _ hst => pow_le_pow_left₀ hs.1 hst 3
  have hweights := eVariationOn_le_of_weights (f := fun t => (c.pointAt t).toComplex)
    c.start.toComplex
    ![fun t => 1 - (1 - t) ^ 3, fun t => 3 * t ^ 2 - 2 * t ^ 3, fun t => t ^ 3]
    ![c.control1.toComplex - c.start.toComplex, c.control2.toComplex - c.control1.toComplex,
      c.finish.toComplex - c.control2.toComplex]
    (by simpa [Fin.sum_univ_three] using c.toComplex_pointAt)
    (by simpa [Fin.forall_fin_succ] using ⟨hfirst, hsecond, hthird⟩)
    (by simp [Fin.forall_fin_succ]) (by norm_num [Fin.forall_fin_succ])
  simpa [Fin.sum_univ_three, polygonLength_eq_norm] using hweights

theorem pointAt_zero : c.pointAt 0 = c.start := by
  apply Point.ext <;> simp [pointAt]

theorem pointAt_one : c.pointAt 1 = c.finish := by
  apply Point.ext <;> simp [pointAt]

theorem pointAt_left (t : ℝ) : c.split.1.pointAt t = c.pointAt (t / 2) := by
  apply Point.ext <;> simp [pointAt, split, Point.midpoint, Scalar.half] <;> ring

theorem pointAt_right (t : ℝ) : c.split.2.pointAt t = c.pointAt ((1 + t) / 2) := by
  apply Point.ext <;> simp [pointAt, split, Point.midpoint, Scalar.half] <;> ring

theorem polygonLength_halves_le :
    c.split.1.polygonLength + c.split.2.polygonLength ≤ c.polygonLength := by
  have hleft := Point.distance_triangle c.start c.control1 c.control2
  have hright := Point.distance_triangle c.control1 c.control2 c.finish
  have hmiddle := Point.distance_midpoint_midpoint_le c.start c.control1 c.control2 c.finish
  simp only [polygonLength, split, Point.distance_midpoint_right, Point.distance_midpoint_left,
    Point.distance_midpoint_midpoint]
  linarith

noncomputable instance : Curve.Parametric (CubicCurve ℝ) where
  pointAt := pointAt
  pointAt_zero := pointAt_zero
  pointAt_one := pointAt_one
  pointAt_left := pointAt_left
  pointAt_right := pointAt_right
  variation_le := variation_le
  polygonLength_halves_le := polygonLength_halves_le

end CubicCurve

end ArcLength
