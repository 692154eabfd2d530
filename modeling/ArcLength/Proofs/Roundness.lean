import Mathlib
import ArcLength.Proofs.Ellipse

/-!
# How round the cubics of an arc are

Seen from the unit circle, a cubic of an arc is symmetric to the direction of its middle. There its
point at a parameter has two parts, along that direction and across it, which are polynomials in the
tangent of a quarter of the angle it sweeps. The squares of the parts add up to an exact formula.
Since no cubic sweeps more than a quarter turn, the radius exceeds one by little.
-/

namespace ArcLength

open Complex

/-- The part of a cubic along the direction of its middle, up to the square of a cosine. Its handles
have the tangent `T`, and `s` runs from `-T` to `T`. -/
def alongMiddle (T s : ℝ) : ℝ := 1 + T ^ 2 - (s ^ 2 + s ^ 2)

/-- The part across the direction of the middle, up to the same factor. -/
def acrossMiddle (T s : ℝ) : ℝ := s * (1 + 1 + T ^ 2 - s ^ 2)

theorem sq_alongMiddle_add_sq_acrossMiddle (T s : ℝ) :
    alongMiddle T s ^ 2 + acrossMiddle T s ^ 2 = (1 + T ^ 2) ^ 2 + (s * (T ^ 2 - s ^ 2)) ^ 2 := by
  rw [alongMiddle, acrossMiddle]
  ring

theorem unitAt_of_radians_eq {q degrees : ℝ} (hq : Scalar.radians degrees = 2 * q)
    (hcos : Real.cos q ≠ 0) : unitAt degrees =
      (Real.cos q : ℂ) ^ 2 * (1 - (Real.tan q : ℂ) ^ 2 + 2 * (Real.tan q : ℂ) * I) := by
  have hsin : Real.sin q = Real.tan q * Real.cos q := (Real.tan_mul_cos hcos).symm
  rw [unitAt, hq, two_mul, ofReal_add, add_mul, exp_add, exp_mul_I, ← ofReal_cos, ← ofReal_sin,
    hsin, ofReal_mul]
  linear_combination (Real.cos q : ℂ) ^ 2 * (Real.tan q : ℂ) ^ 2 * I_sq

/-- Bernstein's form of a cubic whose ends lie to both sides of the direction `m`. -/
theorem bernstein_of_ends {m k u v : ℂ} {T : ℝ} (hu : u = m * (k * (1 - T ^ 2 - 2 * T * I)))
    (hv : v = m * (k * (1 - T ^ 2 + 2 * T * I))) (t : ℝ) :
    ((1 - t) ^ 3 : ℝ) * u + (3 * (1 - t) ^ 2 * t : ℝ) * (u + (4 / 3 * T : ℝ) * (I * u)) +
        (3 * (1 - t) * t ^ 2 : ℝ) * (v - (4 / 3 * T : ℝ) * (I * v)) + (t ^ 3 : ℝ) * v =
      m * (k * (alongMiddle T (T * (t - (1 - t))) + acrossMiddle T (T * (t - (1 - t))) * I)) := by
  rw [hu, hv, alongMiddle, acrossMiddle]
  push_cast
  linear_combination (-8 * T ^ 2 * t * (1 - t) * m * k) * I_sq

namespace Arc

variable (a : Arc ℝ)

/-- The affine map goes along with Bernstein's form. -/
theorem pointAt_fromUnit (u₀ u₁ u₂ u₃ : ℂ) (t : ℝ) :
    (CubicCurve.mk (a.fromUnit u₀) (a.fromUnit u₁) (a.fromUnit u₂) (a.fromUnit u₃)).pointAt t =
      a.fromUnit (((1 - t) ^ 3 : ℝ) * u₀ + (3 * (1 - t) ^ 2 * t : ℝ) * u₁ +
        (3 * (1 - t) * t ^ 2 : ℝ) * u₂ + (t ^ 3 : ℝ) * u₃) := by
  apply Point.ext
  · simp only [CubicCurve.pointAt, fromUnit_x, spread_x, add_re, add_im, re_ofReal_mul,
      im_ofReal_mul]
    ring
  · simp only [CubicCurve.pointAt, fromUnit_y, spread_y, add_re, add_im, re_ofReal_mul,
      im_ofReal_mul]
    ring

/-- The direction halfway between two joints, in degrees. -/
noncomputable def middleAngle (i : ℕ) : ℝ := a.jointAngle i + Scalar.half a.span

/-- How far a cubic is to the side of its middle at a parameter, in parts of the tangent of its
handles. -/
noncomputable def swing (t : ℝ) : ℝ := Real.tan a.quarter * (t - (1 - t))

variable {a}

theorem swing_zero : a.swing 0 = -Real.tan a.quarter := by
  rw [swing]
  ring

theorem swing_one : a.swing 1 = Real.tan a.quarter := by
  rw [swing]
  ring

theorem sq_swing_le {t : ℝ} (ht : t ∈ Set.Icc 0 1) : a.swing t ^ 2 ≤ Real.tan a.quarter ^ 2 := by
  rw [swing, mul_pow]
  refine mul_le_of_le_one_right (sq_nonneg _) ?_
  nlinarith [ht.1, ht.2]

theorem cos_quarter_pos : 0 < Real.cos a.quarter := by
  have hquarter := abs_le.mp a.abs_quarter_le
  have hpi := Real.pi_pos
  exact Real.cos_pos_of_mem_Ioo ⟨by linarith [hquarter.1], by linarith [hquarter.2]⟩

/-- A cubic of an arc seen from the unit circle, turned to the direction of its middle. -/
theorem toUnit_pointAt (ha : a.Proper) (hsweep : a.sweepAngle ≠ 0) (i : ℕ) (t : ℝ) :
    a.toUnit ((a.piece i).pointAt t) = unitAt (a.middleAngle i) * ((Real.cos a.quarter : ℂ) ^ 2 *
      (alongMiddle (Real.tan a.quarter) (a.swing t) +
        acrossMiddle (Real.tan a.quarter) (a.swing t) * I)) := by
  have hhalf : (Scalar.radians (Scalar.half a.span) : ℝ) = 2 * a.quarter := by
    have hspan := a.radians_span_eq
    rw [Scalar.half, radians_div, hspan]
    push_cast
    ring
  have hhalf' : (Scalar.radians (-Scalar.half a.span) : ℝ) = 2 * -a.quarter := by
    rw [radians_neg, hhalf]
    ring
  have hstart : a.jointAngle i = a.middleAngle i + -Scalar.half a.span := by
    rw [middleAngle]
    ring
  have hfinish : a.jointAngle (i + 1) = a.middleAngle i + Scalar.half a.span := by
    rw [middleAngle, jointAngle_succ, Scalar.half]
    push_cast
    ring
  have hcos := (a.cos_quarter_pos).ne'
  rw [piece, ellipseAt, ellipseAt, pointAt_fromUnit, ha.toUnit_fromUnit, a.lever_eq hsweep, swing]
  refine bernstein_of_ends ?_ ?_ t
  · rw [hstart, unitAt_add, unitAt_of_radians_eq hhalf' (by rwa [Real.cos_neg]), Real.cos_neg,
      Real.tan_neg, ofReal_neg]
    ring
  · rw [hfinish, unitAt_add, unitAt_of_radians_eq hhalf hcos]

theorem sq_cos_quarter_mul_one_add : Real.cos a.quarter ^ 2 * (1 + Real.tan a.quarter ^ 2) = 1 := by
  rw [← Real.inv_one_add_tan_sq cos_quarter_pos.ne']
  exact inv_mul_cancel₀ (by positivity)

/-- The squared radius exceeds one by a square. -/
theorem sq_norm_toUnit_pointAt (ha : a.Proper) (hsweep : a.sweepAngle ≠ 0) (i : ℕ) (t : ℝ) :
    ‖a.toUnit ((a.piece i).pointAt t)‖ ^ 2 = 1 +
      (Real.cos a.quarter ^ 2 * (a.swing t * (Real.tan a.quarter ^ 2 - a.swing t ^ 2))) ^ 2 := by
  have hparts := sq_alongMiddle_add_sq_acrossMiddle (Real.tan a.quarter) (a.swing t)
  have hone := a.sq_cos_quarter_mul_one_add
  rw [toUnit_pointAt ha hsweep, norm_mul, norm_unitAt, one_mul, norm_mul, mul_pow,
    Complex.sq_norm (_ + _), normSq_add_mul_I, hparts, norm_pow, norm_real, Real.norm_eq_abs,
    sq_abs]
  linear_combination (Real.cos a.quarter ^ 2 * (1 + Real.tan a.quarter ^ 2) + 1) * hone

theorem sq_mul_sub_le {U s : ℝ} (hs : s ^ 2 ≤ U) : (s * (U - s ^ 2)) ^ 2 ≤ 4 / 27 * U ^ 3 := by
  have hrest : 0 ≤ (U / 3 - s ^ 2) ^ 2 * (4 / 3 * U - s ^ 2) :=
    mul_nonneg (sq_nonneg _) (by linarith [sq_nonneg s])
  linarith

theorem le_sq_cos_quarter : 8535 / 10000 ≤ Real.cos a.quarter ^ 2 := by
  have hpi := Real.pi_pos
  have hsqrt : 14142 / 10000 ≤ √2 := Real.le_sqrt_of_sq_le (by norm_num)
  have hdouble : |2 * a.quarter| ≤ Real.pi / 4 := by
    rw [abs_mul, abs_of_pos (by norm_num : (0 : ℝ) < 2)]
    linarith [a.abs_quarter_le]
  have hcos : Real.cos (Real.pi / 4) ≤ Real.cos |2 * a.quarter| :=
    Real.cos_le_cos_of_nonneg_of_le_pi (abs_nonneg _) (by linarith) hdouble
  rw [Real.cos_pi_div_four, Real.cos_abs] at hcos
  rw [Real.cos_sq]
  linarith

theorem sq_tan_quarter_le : Real.tan a.quarter ^ 2 ≤ 172 / 1000 := by
  have hone := a.sq_cos_quarter_mul_one_add
  have hcos := a.le_sq_cos_quarter
  nlinarith [sq_nonneg (Real.tan a.quarter)]

theorem sq_excess_le {s : ℝ} (hs : s ^ 2 ≤ Real.tan a.quarter ^ 2) :
    (Real.cos a.quarter ^ 2 * (s * (Real.tan a.quarter ^ 2 - s ^ 2))) ^ 2 ≤ 6 / 10000 := by
  have hone := a.sq_cos_quarter_mul_one_add
  have hcos := a.le_sq_cos_quarter
  have htan := a.sq_tan_quarter_le
  generalize Real.cos a.quarter ^ 2 = C at *
  generalize Real.tan a.quarter ^ 2 = U at *
  have hU : 0 ≤ U := (sq_nonneg s).trans hs
  have hsine : C * U = 1 - C := by linarith
  have hcosine : 0 ≤ 1 - C := hsine ▸ mul_nonneg (by linarith) hU
  calc (C * (s * (U - s ^ 2))) ^ 2 = C ^ 2 * (s * (U - s ^ 2)) ^ 2 := mul_pow _ _ _
    _ ≤ C ^ 2 * (4 / 27 * U ^ 3) := by
        gcongr
        exact sq_mul_sub_le hs
    _ = 4 / 27 * (C * U) ^ 2 * U := by ring
    _ = 4 / 27 * (1 - C) ^ 2 * U := by rw [hsine]
    _ ≤ 4 / 27 * (1465 / 10000) ^ 2 * (172 / 1000) := by
        gcongr
        linarith
    _ ≤ 6 / 10000 := by norm_num

theorem norm_toUnit_pointAt_mem_Icc (ha : a.Proper) (hsweep : a.sweepAngle ≠ 0) (i : ℕ) {t : ℝ}
    (ht : t ∈ Set.Icc 0 1) :
    ‖a.toUnit ((a.piece i).pointAt t)‖ ∈ Set.Icc 1 (1 + 3 / 10000) := by
  have hsq := sq_norm_toUnit_pointAt ha hsweep i t
  have hexcess := sq_excess_le (a.sq_swing_le ht)
  have hnorm := norm_nonneg (a.toUnit ((a.piece i).pointAt t))
  constructor
  · refine (pow_le_pow_iff_left₀ zero_le_one hnorm two_ne_zero).mp ?_
    rw [hsq, one_pow]
    exact le_add_of_nonneg_right (sq_nonneg _)
  · refine (pow_le_pow_iff_left₀ hnorm (by norm_num) two_ne_zero).mp ?_
    rw [hsq]
    linarith

/-- What lies near the circle, seen from there, lies near the ellipse. -/
theorem exists_distance_ellipseAt_le (ha : a.Proper) {p : Point ℝ} {ε : ℝ}
    (hp : ‖a.toUnit p‖ ∈ Set.Icc 1 (1 + ε)) : ∃ degrees,
      p.distance (a.ellipseAt degrees) ≤ ε * max a.radius.x a.radius.y := by
  obtain ⟨degrees, hdegrees⟩ := exists_eq_norm_mul_unitAt (a.toUnit p)
  refine ⟨degrees, ?_⟩
  have hmax : 0 ≤ max a.radius.x a.radius.y := ha.radius_x_pos.le.trans (le_max_left _ _)
  have hnear : ‖unitAt degrees - a.toUnit p‖ = ‖a.toUnit p‖ - 1 := by
    have hdiff : unitAt degrees - a.toUnit p = ((1 - ‖a.toUnit p‖ : ℝ) : ℂ) * unitAt degrees := by
      push_cast
      linear_combination -hdegrees
    rw [hdiff, norm_mul, norm_unitAt, mul_one, norm_real, Real.norm_eq_abs, abs_sub_comm,
      abs_of_nonneg (sub_nonneg.mpr hp.1)]
  calc p.distance (a.ellipseAt degrees)
      = (a.fromUnit (a.toUnit p)).distance (a.fromUnit (unitAt degrees)) := by
        rw [ha.fromUnit_toUnit, ellipseAt]
    _ ≤ max a.radius.x a.radius.y * (‖a.toUnit p‖ - 1) := hnear ▸ ha.distance_fromUnit_le _ _
    _ ≤ max a.radius.x a.radius.y * ε := by
        gcongr
        linarith [hp.2]
    _ = ε * max a.radius.x a.radius.y := mul_comm _ _

/-- **The cubics of an arc keep close to it.** The affine map takes the arc to the unit circle. Each
element is a cubic from where the pen stands, and seen from the circle no point of it lies inside, or
further outside than `3 / 10000`. So it is as close to the ellipse, in parts of the larger radius. -/
theorem elements_near_ellipse (ha : a.Proper) (hsweep : a.sweepAngle ≠ 0) {pen : Pen}
    (hpen : pen.position = a.start) :
    (∀ t, a.toUnit (a.point t) = unitAt (a.angleAt t)) ∧
    ∀ (i : ℕ) (e : Element ℝ), a.elements[i]? = some e → ∃ c : CubicCurve ℝ,
      e = .cubicTo c.control1 c.control2 c.finish ∧
      c.start = ((a.elements.take i).foldl Pen.after pen).position ∧
      ∀ t ∈ Set.Icc (0 : ℝ) 1, ‖a.toUnit (c.pointAt t)‖ ∈ Set.Icc 1 (1 + 3 / 10000) ∧
        ∃ degrees, (c.pointAt t).distance (a.ellipseAt degrees) ≤
          3 / 10000 * max a.radius.x a.radius.y := by
  refine ⟨fun t => ?_, fun i e he => ?_⟩
  · rw [point_eq, ellipseAt, ha.toUnit_fromUnit]
  · obtain ⟨hi, rfl⟩ := getElem?_elements ha hsweep he
    refine ⟨a.piece i, rfl, (position_after_take ha hsweep hpen hi.le).symm, fun t ht => ?_⟩
    have hnorm := norm_toUnit_pointAt_mem_Icc ha hsweep i ht
    exact ⟨hnorm, exists_distance_ellipseAt_le ha hnorm⟩

/-- The second of the two cubics that draw a half ellipse. -/
theorem elements_near_ellipse_uprightHalf :
    uprightHalf.Proper ∧ uprightHalf.sweepAngle ≠ 0 ∧ ∃ c : CubicCurve ℝ,
      uprightHalf.elements[1]? = some (.cubicTo c.control1 c.control2 c.finish) ∧
      ∀ t ∈ Set.Icc (0 : ℝ) 1, ‖uprightHalf.toUnit (c.pointAt t)‖ ∈ Set.Icc 1 (1 + 3 / 10000) ∧
        ∃ degrees, (c.pointAt t).distance (uprightHalf.ellipseAt degrees) ≤ 6 / 10000 := by
  refine ⟨uprightHalf_proper, uprightHalf_sweepAngle_ne_zero, ?_⟩
  have he : ∃ e, uprightHalf.elements[1]? = some e := by
    rw [elements_eq uprightHalf_proper.point_one uprightHalf_sweepAngle_ne_zero,
      uprightHalf_cubicCount]
    exact ⟨_, rfl⟩
  obtain ⟨e, he⟩ := he
  have hpen : (Pen.mk uprightHalf.start uprightHalf.start).position = uprightHalf.start := rfl
  obtain ⟨-, hnear⟩ :=
    elements_near_ellipse uprightHalf_proper uprightHalf_sweepAngle_ne_zero hpen
  obtain ⟨c, rfl, -, hc⟩ := hnear 1 e he
  refine ⟨c, he, fun t ht => ⟨(hc t ht).1, ?_⟩⟩
  obtain ⟨degrees, hdegrees⟩ := (hc t ht).2
  refine ⟨degrees, hdegrees.trans_eq ?_⟩
  change 3 / 10000 * max (2 : ℝ) 1 = 6 / 10000
  rw [max_eq_left one_le_two]
  norm_num

end Arc

end ArcLength
