import Mathlib
import ArcLength.Arc
import ArcLength.Proofs.Itinerary
import ArcLength.Proofs.Parametrization

/-!
# Arcs on their ellipses

In the exact plane an ellipse is the image of the unit circle under an affine map, and the cubics of
an arc are images of cubics at the circle. Their ends divide the sweep evenly. Their handles all
reach equally far along the tangents at the ends.
-/

namespace ArcLength

open Complex

namespace Point

section Parts

variable {α : Type} [Scalar α] (p q : Point α)

@[simp]
theorem add_x : (p + q).x = p.x + q.x := rfl

@[simp]
theorem add_y : (p + q).y = p.y + q.y := rfl

@[simp]
theorem sub_x : (p - q).x = p.x - q.x := rfl

@[simp]
theorem sub_y : (p - q).y = p.y - q.y := rfl

end Parts

theorem ofParts_eq (x y : ℝ) : (ofParts x y : Point ℝ) = ⟨x, y⟩ := by
  apply Point.ext
  · change x + (y * 0 - 0 * 1) = x
    ring
  · change 0 + (y * 1 + 0 * 0) = y
    ring

theorem mul_ofReal (p : Point ℝ) (r : ℝ) : p * ofReal r = ⟨p.x * r, p.y * r⟩ := by
  apply Point.ext
  · change p.x * r - p.y * 0 = p.x * r
    ring
  · change p.x * 0 + p.y * r = p.y * r
    ring

theorem ofReal_mul (r : ℝ) (p : Point ℝ) : ofReal r * p = ⟨r * p.x, r * p.y⟩ := by
  apply Point.ext
  · change r * p.x - 0 * p.y = r * p.x
    ring
  · change r * p.y + 0 * p.x = r * p.y
    ring

end Point

/-- The point of the unit circle at an angle in degrees. -/
noncomputable def unitAt (degrees : ℝ) : ℂ := exp ((Scalar.radians degrees : ℝ) * I)

theorem radians_eq (degrees : ℝ) : (Scalar.radians degrees : ℝ) = degrees * (Real.pi / 180) := by
  have hcast : (180 : ℝ) = ((180 : ℕ) : ℝ) := by norm_num
  rw [hcast]
  rfl

theorem radians_add (a b : ℝ) :
    (Scalar.radians (a + b) : ℝ) = Scalar.radians a + Scalar.radians b := add_mul a b _

theorem radians_neg (a : ℝ) : (Scalar.radians (-a) : ℝ) = -Scalar.radians a := neg_mul a _

theorem radians_abs (a : ℝ) : (Scalar.radians |a| : ℝ) = |Scalar.radians a| := by
  rw [radians_eq, radians_eq, abs_mul, abs_of_pos (by positivity : 0 < Real.pi / 180)]

theorem radians_div (a b : ℝ) : (Scalar.radians (a / b) : ℝ) = Scalar.radians a / b :=
  div_mul_eq_mul_div a b _

theorem radians_ne_zero {a : ℝ} (ha : a ≠ 0) : (Scalar.radians a : ℝ) ≠ 0 := by
  rw [radians_eq]
  exact mul_ne_zero ha (div_ne_zero Real.pi_ne_zero (by norm_num))

theorem unitAt_re (degrees : ℝ) : (unitAt degrees).re = Real.cos (Scalar.radians degrees) :=
  exp_ofReal_mul_I_re _

theorem unitAt_im (degrees : ℝ) : (unitAt degrees).im = Real.sin (Scalar.radians degrees) :=
  exp_ofReal_mul_I_im _

theorem norm_unitAt (degrees : ℝ) : ‖unitAt degrees‖ = 1 := norm_exp_ofReal_mul_I _

theorem unitAt_add (a b : ℝ) : unitAt (a + b) = unitAt a * unitAt b := by
  rw [unitAt, unitAt, unitAt, ← exp_add, radians_add, ofReal_add, add_mul]

/-- Every complex number lies at some angle. -/
theorem exists_eq_norm_mul_unitAt (u : ℂ) : ∃ degrees, u = ‖u‖ * unitAt degrees := by
  have hpi := Real.pi_ne_zero
  refine ⟨u.arg * (180 / Real.pi), ?_⟩
  have hradians : (Scalar.radians (u.arg * (180 / Real.pi)) : ℝ) = u.arg := by
    rw [radians_eq]
    field_simp
  rw [unitAt, hradians, norm_mul_exp_arg_mul_I]

namespace Arc

variable (a : Arc ℝ)

/-- An ellipse with positive radii, and an arc on it that leads from its start to its finish. -/
structure Proper : Prop where
  radius_x_pos : 0 < a.radius.x
  radius_y_pos : 0 < a.radius.y
  point_zero : a.point 0 = a.start
  point_one : a.point 1 = a.finish

/-- The linear part of the map from the unit circle to the ellipse. -/
noncomputable def spread (u : ℂ) : Point ℝ :=
  let turn : Point ℝ := .direction (Scalar.radians a.rotation)
  ⟨a.radius.x * turn.x * u.re - a.radius.y * turn.y * u.im,
    a.radius.x * turn.y * u.re + a.radius.y * turn.x * u.im⟩

/-- The affine map that takes the unit circle to the ellipse. -/
noncomputable def fromUnit (u : ℂ) : Point ℝ := a.spread u + a.center

/-- The affine map that takes the ellipse to the unit circle. -/
noncomputable def toUnit (p : Point ℝ) : ℂ :=
  let turn : Point ℝ := .direction (Scalar.radians a.rotation)
  let q := p - a.center
  ⟨(q.x * turn.x + q.y * turn.y) / a.radius.x, (q.y * turn.x - q.x * turn.y) / a.radius.y⟩

/-- The point of the ellipse at an angle in degrees. -/
noncomputable def ellipseAt (degrees : ℝ) : Point ℝ := a.fromUnit (unitAt degrees)

theorem spread_x (u : ℂ) : (a.spread u).x =
    a.radius.x * Real.cos (Scalar.radians a.rotation) * u.re -
      a.radius.y * Real.sin (Scalar.radians a.rotation) * u.im := rfl

theorem spread_y (u : ℂ) : (a.spread u).y =
    a.radius.x * Real.sin (Scalar.radians a.rotation) * u.re +
      a.radius.y * Real.cos (Scalar.radians a.rotation) * u.im := rfl

theorem fromUnit_x (u : ℂ) : (a.fromUnit u).x = (a.spread u).x + a.center.x := rfl

theorem fromUnit_y (u : ℂ) : (a.fromUnit u).y = (a.spread u).y + a.center.y := rfl

theorem toUnit_re (p : Point ℝ) : (a.toUnit p).re =
    ((p.x - a.center.x) * Real.cos (Scalar.radians a.rotation) +
      (p.y - a.center.y) * Real.sin (Scalar.radians a.rotation)) / a.radius.x := rfl

theorem toUnit_im (p : Point ℝ) : (a.toUnit p).im =
    ((p.y - a.center.y) * Real.cos (Scalar.radians a.rotation) -
      (p.x - a.center.x) * Real.sin (Scalar.radians a.rotation)) / a.radius.y := rfl

theorem spread_ofReal_mul (r : ℝ) (u : ℂ) : a.spread (r * u) = a.spread u * .ofReal r := by
  rw [Point.mul_ofReal]
  apply Point.ext
  · simp only [spread_x, re_ofReal_mul, im_ofReal_mul]
    ring
  · simp only [spread_y, re_ofReal_mul, im_ofReal_mul]
    ring

theorem fromUnit_add (u v : ℂ) : a.fromUnit (u + v) = a.fromUnit u + a.spread v := by
  apply Point.ext
  · simp only [Point.add_x, fromUnit_x, spread_x, add_re, add_im]
    ring
  · simp only [Point.add_y, fromUnit_y, spread_y, add_re, add_im]
    ring

theorem fromUnit_sub (u v : ℂ) : a.fromUnit (u - v) = a.fromUnit u - a.spread v := by
  apply Point.ext
  · simp only [Point.sub_x, fromUnit_x, spread_x, sub_re, sub_im]
    ring
  · simp only [Point.sub_y, fromUnit_y, spread_y, sub_re, sub_im]
    ring

namespace Proper

variable {a} (ha : a.Proper)
include ha

theorem toUnit_fromUnit (u : ℂ) : a.toUnit (a.fromUnit u) = u := by
  have hturn := Real.cos_sq_add_sin_sq (Scalar.radians a.rotation)
  apply Complex.ext
  · rw [toUnit_re, fromUnit_x, fromUnit_y, spread_x, spread_y, div_eq_iff ha.radius_x_pos.ne']
    linear_combination u.re * a.radius.x * hturn
  · rw [toUnit_im, fromUnit_x, fromUnit_y, spread_x, spread_y, div_eq_iff ha.radius_y_pos.ne']
    linear_combination u.im * a.radius.y * hturn

theorem fromUnit_toUnit (p : Point ℝ) : a.fromUnit (a.toUnit p) = p := by
  have hturn := Real.cos_sq_add_sin_sq (Scalar.radians a.rotation)
  have hx := ha.radius_x_pos.ne'
  have hy := ha.radius_y_pos.ne'
  apply Point.ext
  · rw [fromUnit_x, spread_x, toUnit_re, toUnit_im]
    field_simp
    linear_combination (p.x - a.center.x) * hturn
  · rw [fromUnit_y, spread_y, toUnit_re, toUnit_im]
    field_simp
    linear_combination (p.y - a.center.y) * hturn

theorem eq_zero_of_spread_eq {u : ℂ} (hu : a.spread u = .origin) : u = 0 := by
  have hzero : a.fromUnit u = a.fromUnit 0 := by
    rw [← zero_add u, fromUnit_add, hu]
    apply Point.ext
    · exact add_zero _
    · exact add_zero _
  rw [← ha.toUnit_fromUnit u, hzero, ha.toUnit_fromUnit]

/-- The map stretches by the larger radius at most. -/
theorem distance_fromUnit_le (u v : ℂ) :
    (a.fromUnit u).distance (a.fromUnit v) ≤ max a.radius.x a.radius.y * ‖v - u‖ := by
  have hturn := Real.cos_sq_add_sin_sq (Scalar.radians a.rotation)
  have hmax : 0 ≤ max a.radius.x a.radius.y := ha.radius_x_pos.le.trans (le_max_left _ _)
  have hmaxx : a.radius.x ^ 2 ≤ max a.radius.x a.radius.y ^ 2 :=
    pow_le_pow_left₀ ha.radius_x_pos.le (le_max_left _ _) 2
  have hmaxy : a.radius.y ^ 2 ≤ max a.radius.x a.radius.y ^ 2 :=
    pow_le_pow_left₀ ha.radius_y_pos.le (le_max_right _ _) 2
  refine Real.sqrt_le_iff.mpr ⟨mul_nonneg hmax (norm_nonneg _), ?_⟩
  calc ((a.fromUnit v).x - (a.fromUnit u).x) ^ 2 + ((a.fromUnit v).y - (a.fromUnit u).y) ^ 2
      = a.radius.x ^ 2 * (v - u).re ^ 2 + a.radius.y ^ 2 * (v - u).im ^ 2 := by
        simp only [fromUnit_x, fromUnit_y, spread_x, spread_y, sub_re, sub_im]
        linear_combination (a.radius.x ^ 2 * (v.re - u.re) ^ 2 +
          a.radius.y ^ 2 * (v.im - u.im) ^ 2) * hturn
    _ ≤ max a.radius.x a.radius.y ^ 2 * (v - u).re ^ 2 +
          max a.radius.x a.radius.y ^ 2 * (v - u).im ^ 2 := by gcongr
    _ = (max a.radius.x a.radius.y * ‖v - u‖) ^ 2 := by
        rw [mul_pow, Complex.sq_norm, normSq_apply]
        ring

end Proper

theorem point_eq (t : ℝ) : a.point t = a.ellipseAt (a.angleAt t) := by
  have hangle : a.angleAt t * Scalar.pi / ((180 : ℕ) : ℝ) = Scalar.radians (a.angleAt t) :=
    mul_div_assoc _ _ _
  rw [point, hangle, Point.ofParts_eq]
  apply Point.ext
  · rw [ellipseAt, fromUnit_x, spread_x, unitAt_re, unitAt_im]
    rfl
  · rw [ellipseAt, fromUnit_y, spread_y, unitAt_re, unitAt_im]
    rfl

theorem derivative_eq (t : ℝ) : a.derivative t =
    a.spread ((Scalar.radians a.sweepAngle : ℝ) * (I * unitAt (a.angleAt t))) := by
  have hrate : a.sweepAngle * Scalar.pi / ((180 : ℕ) : ℝ) = Scalar.radians a.sweepAngle :=
    mul_div_assoc _ _ _
  rw [derivative, hrate, Point.ofParts_eq, Point.ofReal_mul]
  apply Point.ext
  · simp only [spread_x, re_ofReal_mul, im_ofReal_mul, I_mul_re, I_mul_im, unitAt_re, unitAt_im]
    change Scalar.radians a.sweepAngle *
      (-a.radius.x * Real.cos _ * Real.sin _ - a.radius.y * Real.sin _ * Real.cos _) = _
    ring
  · simp only [spread_y, re_ofReal_mul, im_ofReal_mul, I_mul_re, I_mul_im, unitAt_re, unitAt_im]
    change Scalar.radians a.sweepAngle *
      (-a.radius.x * Real.sin _ * Real.sin _ + a.radius.y * Real.cos _ * Real.cos _) = _
    ring

theorem hasDerivAt_radians_angleAt (t : ℝ) :
    HasDerivAt (fun t => (Scalar.radians (a.angleAt t) : ℝ)) (Scalar.radians a.sweepAngle) t := by
  have hangle : HasDerivAt a.angleAt a.sweepAngle t := by
    have hlinear := ((hasDerivAt_id t).mul_const a.sweepAngle).const_add a.startAngle
    rw [one_mul] at hlinear
    exact hlinear
  exact hangle.mul_const _

/-- The derivative is that of the point. -/
theorem hasDerivAt_point (t : ℝ) : HasDerivAt (fun t => (a.point t).x) (a.derivative t).x t ∧
    HasDerivAt (fun t => (a.point t).y) (a.derivative t).y t := by
  have hcos := (a.hasDerivAt_radians_angleAt t).cos
  have hsin := (a.hasDerivAt_radians_angleAt t).sin
  simp only [point_eq, derivative_eq, ellipseAt, fromUnit_x, fromUnit_y, spread_x, spread_y,
    re_ofReal_mul, im_ofReal_mul, I_mul_re, I_mul_im, unitAt_re, unitAt_im]
  constructor
  · have hx := (hcos.const_mul (a.radius.x * Real.cos (Scalar.radians a.rotation))).sub
      (hsin.const_mul (a.radius.y * Real.sin (Scalar.radians a.rotation)))
    exact (hx.add_const a.center.x).congr_deriv (by ring)
  · have hy := (hcos.const_mul (a.radius.x * Real.sin (Scalar.radians a.rotation))).add
      (hsin.const_mul (a.radius.y * Real.cos (Scalar.radians a.rotation)))
    exact (hy.add_const a.center.y).congr_deriv (by ring)

theorem cubicCount_pos : 0 < a.cubicCount :=
  Nat.lt_of_lt_of_le Nat.zero_lt_one (Nat.le_max_left _ _)

theorem cubicCount_ne_zero : (a.cubicCount : ℝ) ≠ 0 := Nat.cast_ne_zero.mpr a.cubicCount_pos.ne'

theorem cubicCount_eq (hsweep : a.sweepAngle ≠ 0) : a.cubicCount = ⌈|a.sweepAngle| / 90⌉₊ := by
  have hpos : 0 < |a.sweepAngle| / 90 := by positivity
  have hceil : 1 ≤ ⌈|a.sweepAngle| / 90⌉₊ := Nat.one_le_ceil_iff.mpr hpos
  rw [cubicCount, scalar_abs]
  change max 1 ⌈|a.sweepAngle| / ((90 : ℕ) : ℝ)⌉₊ = _
  rw [Nat.cast_ofNat, max_eq_right hceil]

/-- The angle in degrees that each cubic sweeps. -/
noncomputable def span : ℝ := a.sweepAngle / a.cubicCount

/-- A quarter of the angle that each cubic sweeps, in radians. -/
noncomputable def quarter : ℝ := Scalar.half (Scalar.half (Scalar.radians a.span))

theorem abs_span_le : |a.span| ≤ 90 := by
  have hpos : (0 : ℝ) < a.cubicCount := Nat.cast_pos.mpr a.cubicCount_pos
  obtain hzero | hsweep := eq_or_ne a.sweepAngle 0
  · rw [span, hzero, zero_div, abs_zero]
    norm_num
  · rw [span, abs_div, abs_of_pos hpos, div_le_iff₀ hpos, mul_comm, ← div_le_iff₀ (by norm_num),
      a.cubicCount_eq hsweep]
    exact Nat.le_ceil _

theorem radians_span_eq : Scalar.radians a.span = 4 * a.quarter := by
  simp only [quarter, Scalar.half, Nat.cast_ofNat]
  ring

theorem abs_quarter_le : |a.quarter| ≤ Real.pi / 8 := by
  have hspan := a.abs_span_le
  have hquarter : a.quarter = a.span * (Real.pi / 720) := by
    linarith [a.radians_span_eq, radians_eq a.span]
  rw [hquarter, abs_mul, abs_of_pos (by positivity : 0 < Real.pi / 720)]
  calc |a.span| * (Real.pi / 720) ≤ 90 * (Real.pi / 720) := by gcongr
    _ = Real.pi / 8 := by ring

/-- The angle in degrees at which a cubic of the arc starts. -/
noncomputable def jointAngle (i : ℕ) : ℝ := a.angleAt (i * a.stepSize)

theorem jointAngle_eq (i : ℕ) : a.jointAngle i = a.startAngle + i * a.span := by
  change a.startAngle + i * (1 / a.cubicCount) * a.sweepAngle = _
  rw [span]
  ring

theorem jointAngle_succ (i : ℕ) : a.jointAngle (i + 1) = a.jointAngle i + a.span := by
  rw [jointAngle_eq, jointAngle_eq]
  push_cast
  ring

theorem cubicCount_mul_stepSize : a.cubicCount * a.stepSize = 1 :=
  mul_one_div_cancel a.cubicCount_ne_zero

/-- How far a handle reaches along a tangent of the unit circle. -/
noncomputable def lever : ℝ := Scalar.radians a.sweepAngle * a.handle

theorem radians_sweepAngle_mul_stepSize :
    Scalar.radians a.sweepAngle * a.stepSize = 4 * a.quarter := by
  rw [← radians_span_eq, span, radians_div]
  exact mul_one_div _ _

theorem abs_radians_sweepAngle_mul_stepSize :
    |Scalar.radians a.sweepAngle| * a.stepSize = 4 * |a.quarter| := by
  have hstep : 0 < a.stepSize := one_div_pos.mpr (Nat.cast_pos.mpr a.cubicCount_pos)
  calc |Scalar.radians a.sweepAngle| * a.stepSize = |Scalar.radians a.sweepAngle * a.stepSize| := by
        rw [abs_mul, abs_of_pos hstep]
    _ = 4 * |a.quarter| := by
        rw [radians_sweepAngle_mul_stepSize, abs_mul, abs_of_pos (by norm_num : (0 : ℝ) < 4)]

theorem handle_eq (hsweep : a.sweepAngle ≠ 0) :
    a.handle = 4 / 3 * Real.tan |a.quarter| / |Scalar.radians a.sweepAngle| := by
  have hradians := abs_ne_zero.mpr (radians_ne_zero hsweep)
  have hspan := a.abs_radians_sweepAngle_mul_stepSize
  have hstep : a.stepSize ≠ 0 := one_div_ne_zero a.cubicCount_ne_zero
  rw [handle, scalar_abs, radians_abs]
  change 4 / 3 * Real.tan (_ * _ / 4) / _ * _ = _
  rw [hspan, mul_div_cancel_left₀ _ (by norm_num : (4 : ℝ) ≠ 0), ← hspan]
  field_simp

/-- The handles reach four thirds of the tangent of a quarter of a cubic's angle. -/
theorem lever_eq (hsweep : a.sweepAngle ≠ 0) : a.lever = 4 / 3 * Real.tan a.quarter := by
  have hne := radians_ne_zero hsweep
  have hquarter := a.radians_sweepAngle_mul_stepSize
  have habs := a.abs_radians_sweepAngle_mul_stepSize
  rw [lever, a.handle_eq hsweep]
  rcases abs_choice (Scalar.radians a.sweepAngle) with hsign | hsign
  · have hsame : |a.quarter| = a.quarter := by linarith [hsign ▸ habs]
    rw [hsign, hsame, mul_div_cancel₀ _ hne]
  · -- falling angles turn the tangent around, and the handle with it
    have hopposite : |a.quarter| = -a.quarter := by linarith [hsign ▸ habs]
    rw [hsign, hopposite, Real.tan_neg, mul_neg, neg_div_neg_eq, mul_div_cancel₀ _ hne]

theorem handle_pos (hsweep : a.sweepAngle ≠ 0) : 0 < a.handle := by
  have hpi := Real.pi_pos
  have hradians : 0 < |Scalar.radians a.sweepAngle| := abs_pos.mpr (radians_ne_zero hsweep)
  have hstep : 0 < a.stepSize := one_div_pos.mpr (Nat.cast_pos.mpr a.cubicCount_pos)
  have hquarter : 0 < |a.quarter| := by
    linarith [a.abs_radians_sweepAngle_mul_stepSize, mul_pos hradians hstep]
  have htan : 0 < Real.tan |a.quarter| :=
    Real.tan_pos_of_pos_of_lt_pi_div_two hquarter (by linarith [a.abs_quarter_le])
  rw [handle_eq _ hsweep]
  positivity

theorem derivative_mul_handle (t : ℝ) : a.derivative t * .ofReal a.handle =
    a.spread (a.lever * (I * unitAt (a.angleAt t))) := by
  rw [derivative_eq, ← spread_ofReal_mul, ← mul_assoc, ← ofReal_mul, mul_comm a.handle]
  rfl

/-- The cubic between two neighbouring joints. -/
noncomputable def piece (i : ℕ) : CubicCurve ℝ where
  start := a.ellipseAt (a.jointAngle i)
  control1 := a.fromUnit (unitAt (a.jointAngle i) + a.lever * (I * unitAt (a.jointAngle i)))
  control2 :=
    a.fromUnit (unitAt (a.jointAngle (i + 1)) - a.lever * (I * unitAt (a.jointAngle (i + 1))))
  finish := a.ellipseAt (a.jointAngle (i + 1))

variable {a} {i k : ℕ}

theorem ellipseAt_jointAngle_zero (hstart : a.point 0 = a.start) :
    a.ellipseAt (a.jointAngle 0) = a.start := by
  rw [jointAngle, Nat.cast_zero, zero_mul, ← point_eq, hstart]

theorem ellipseAt_jointAngle_cubicCount (hfinish : a.point 1 = a.finish) :
    a.ellipseAt (a.jointAngle a.cubicCount) = a.finish := by
  rw [jointAngle, cubicCount_mul_stepSize, ← point_eq, hfinish]

theorem cubic_eq (hfinish : a.point 1 = a.finish) (i : ℕ) : a.cubic i =
    .cubicTo (a.piece i).control1 (a.piece i).control2 (a.piece i).finish := by
  have hlast : (if i + 1 == a.cubicCount then a.finish else a.point ((i + 1 : ℕ) * a.stepSize)) =
      a.ellipseAt (a.jointAngle (i + 1)) := by
    split
    · rename_i hcount
      rw [eq_of_beq hcount, ellipseAt_jointAngle_cubicCount hfinish]
    · exact a.point_eq _
  rw [cubic, hlast, derivative_mul_handle, derivative_mul_handle, point_eq]
  simp only [piece, fromUnit_add, fromUnit_sub]
  rfl

theorem elements_eq (hfinish : a.point 1 = a.finish) (hsweep : a.sweepAngle ≠ 0) :
    a.elements = (List.range a.cubicCount).map fun i =>
      .cubicTo (a.piece i).control1 (a.piece i).control2 (a.piece i).finish := by
  rw [elements, if_neg (by simpa using hsweep)]
  exact List.map_congr_left fun i _ => cubic_eq hfinish i

theorem getElem?_elements {e : Element ℝ} (ha : a.Proper) (hsweep : a.sweepAngle ≠ 0)
    (he : a.elements[i]? = some e) : i < a.cubicCount ∧
      e = .cubicTo (a.piece i).control1 (a.piece i).control2 (a.piece i).finish := by
  rw [elements_eq ha.point_one hsweep] at he
  obtain ⟨hi, hget⟩ := List.getElem?_eq_some_iff.mp he
  rw [List.length_map, List.length_range] at hi
  rw [List.getElem_map, List.getElem_range] at hget
  exact ⟨hi, hget.symm⟩

theorem position_after_take {pen : Pen} (ha : a.Proper) (hsweep : a.sweepAngle ≠ 0)
    (hpen : pen.position = a.start) (hk : k ≤ a.cubicCount) :
    ((a.elements.take k).foldl Pen.after pen).position = a.ellipseAt (a.jointAngle k) := by
  cases k with
  | zero => rw [ellipseAt_jointAngle_zero ha.point_zero, ← hpen]; rfl
  | succ k =>
      rw [elements_eq ha.point_one hsweep, ← List.map_take, List.take_range, min_eq_left hk,
        List.range_succ, List.map_append, List.foldl_append]
      rfl

/-- A half of an upright ellipse, drawn by falling angles. -/
noncomputable def uprightHalf : Arc ℝ where
  start := ⟨0, (2 : ℕ)⟩
  finish := ⟨0, -(2 : ℕ)⟩
  center := .origin
  radius := ⟨(2 : ℕ), 1⟩
  rotation := (90 : ℕ)
  startAngle := 0
  sweepAngle := -(180 : ℕ)

theorem uprightHalf_sweepAngle : uprightHalf.sweepAngle = -180 := rfl

theorem uprightHalf_sweepAngle_ne_zero : uprightHalf.sweepAngle ≠ 0 := by
  rw [uprightHalf_sweepAngle]
  norm_num

theorem uprightHalf_cubicCount : uprightHalf.cubicCount = 2 := by
  have hquarters : |(-180 : ℝ)| / 90 = 2 := by norm_num
  rw [cubicCount_eq _ uprightHalf_sweepAngle_ne_zero, uprightHalf_sweepAngle, hquarters,
    Nat.ceil_ofNat]

theorem uprightHalf_angleAt (t : ℝ) : uprightHalf.angleAt t = -180 * t := by
  change 0 + t * -180 = -180 * t
  ring

theorem uprightHalf_ellipseAt (degrees : ℝ) : uprightHalf.ellipseAt degrees =
    ⟨-Real.sin (Scalar.radians degrees), 2 * Real.cos (Scalar.radians degrees)⟩ := by
  have hturn : Scalar.radians uprightHalf.rotation = Real.pi / 2 := by
    change Scalar.radians 90 = Real.pi / 2
    rw [radians_eq]
    ring
  apply Point.ext
  · rw [ellipseAt, fromUnit_x, spread_x, hturn, Real.cos_pi_div_two, Real.sin_pi_div_two, unitAt_im]
    change 2 * 0 * _ - 1 * 1 * _ + 0 = _
    ring
  · rw [ellipseAt, fromUnit_y, spread_y, hturn, Real.cos_pi_div_two, Real.sin_pi_div_two, unitAt_re]
    change 2 * 1 * _ + 1 * 0 * _ + 0 = _
    ring

theorem uprightHalf_proper : uprightHalf.Proper where
  radius_x_pos := two_pos
  radius_y_pos := one_pos
  point_zero := by
    rw [point_eq, uprightHalf_angleAt, uprightHalf_ellipseAt, mul_zero, radians_eq, zero_mul,
      Real.sin_zero, Real.cos_zero, neg_zero, mul_one]
    rfl
  point_one := by
    have hstraight : (Scalar.radians (-180 * 1) : ℝ) = -Real.pi := by
      rw [radians_eq]
      ring
    rw [point_eq, uprightHalf_angleAt, uprightHalf_ellipseAt, hstraight, Real.sin_neg, Real.sin_pi,
      Real.cos_neg, Real.cos_pi, neg_zero, neg_zero, mul_neg_one]
    rfl

end Arc

end ArcLength
