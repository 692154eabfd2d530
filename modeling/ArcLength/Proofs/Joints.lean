import Mathlib
import ArcLength.Proofs.Invariants
import ArcLength.Proofs.Roundness
import ArcLength.Proofs.Simulation
import ArcLength.Proofs.Stop

/-!
# How the cubics of an arc join

The cubics of an arc divide its sweep evenly, and the angle of a point grows along each of them.
Where two meet, the handles are mirror images, since both are as long along one tangent. The pen that
a walk leaves behind a cubic stands where the next one has its first handle.
-/

namespace ArcLength

open Complex Filter Set

namespace State

variable {budget index : ℕ} {s t : State ℝ} {e : Element ℝ} {es : List (Element ℝ)} {length : ℝ}

theorem pen_of_draw (hs : s.goal = .totalLength) (h : s.draw budget e = some (length, t)) :
    t.pen = s.pen.after e := by
  have hcurrent := (draw_totalLength hs h).2
  cases e with
  | moveTo p =>
      obtain ⟨-, rfl⟩ := Prod.mk.inj (Option.some.inj h)
      rfl
  | _ => exact Pen.ext hcurrent (subpathStart_of_draw h rfl)

theorem pen_of_advance_of_totalLength (hs : s.goal = .totalLength)
    (h : s.advance budget index e = some (.walking t)) : t.pen = s.pen.after e := by
  rw [advance_of_totalLength hs, enter_eq, Option.map_map] at h
  obtain ⟨⟨length, u⟩, hdraw, hcount⟩ := Option.map_eq_some_iff.mp h
  obtain rfl := Progress.walking.inj hcount
  have hpen : u.pen = (s.poised index).pen.after e := pen_of_draw hs hdraw
  exact hpen

theorem pen_of_advance (h : s.advance budget index e = some (.walking t)) :
    t.pen = s.pen.after e := by
  cases hgoal : s.goal.isLengthQuery with
  | false =>
      refine pen_of_advance_of_totalLength ?_ h
      cases hs : s.goal with
      | totalLength => rfl
      | _ => simp [hs, Goal.isLengthQuery] at hgoal
  | true =>
      -- a query that goes on stands where the length walk does
      have hfollows : s.Follows { s with goal := .totalLength } := rfl
      obtain ⟨l, hl, hlike⟩ := hfollows.advance_of_walking hgoal rfl h
      have hpen := pen_of_advance_of_totalLength rfl hl
      exact (Pen.ext hlike.current_eq hlike.subpathStart_eq).trans hpen

theorem pen_of_advanceAll (h : s.advanceAll budget index es = some (.walking t)) :
    t.pen = es.foldl Pen.after s.pen := by
  induction es generalizing s index with
  | nil =>
      obtain rfl := Progress.walking.inj (Option.some.inj h)
      rfl
  | cons e rest ih =>
      rw [advanceAll_cons] at h
      obtain ⟨r, hstep, hrest⟩ := Option.bind_eq_some_iff.mp h
      cases r with
      | answered u => simp at hrest
      | walking u => rw [ih hrest, pen_of_advance hstep, List.foldl_cons]

theorem eventually_exists_advanceAll (hs : s.goal = .totalLength) (htolerance : 0 < s.tolerance)
    (index : ℕ) (es : List (Element ℝ)) :
    ∀ᶠ budget in atTop, ∃ t, s.advanceAll budget index es = some (.walking t) := by
  filter_upwards [Pen.eventually_affordsAll htolerance s.pen es] with budget hafford
  obtain ⟨t, ht, -⟩ := exists_advanceAll_of_totalLength index hs hafford
  exact ⟨t, ht⟩

end State

theorem alongMiddle_pos {T s : ℝ} (hT : T ^ 2 ≤ 172 / 1000) (hs : s ^ 2 ≤ T ^ 2) :
    0 < alongMiddle T s := by
  rw [alongMiddle]
  linarith

/-- The slope of a point of the cubic, seen from its middle. -/
noncomputable def slope (T s : ℝ) : ℝ := acrossMiddle T s / alongMiddle T s

theorem slope_neg (T s : ℝ) : slope T (-s) = -slope T s := by
  rw [slope, slope, ← neg_div, acrossMiddle, acrossMiddle, alongMiddle, alongMiddle, neg_sq,
    neg_mul]

theorem slope_lt {T s s' : ℝ} (hT : T ^ 2 ≤ 172 / 1000) (hs : s ^ 2 ≤ T ^ 2) (hs' : s' ^ 2 ≤ T ^ 2)
    (hlt : s < s') : slope T s < slope T s' := by
  rw [slope, slope, div_lt_div_iff₀ (alongMiddle_pos hT hs) (alongMiddle_pos hT hs'), ← sub_pos]
  have hproduct : -(T ^ 2) ≤ s * s' := by linarith [sq_nonneg (s + s')]
  have hfactor : 0 < (2 + T ^ 2) * (1 + T ^ 2) + 2 * (2 + T ^ 2) * (s * s') -
      (1 + T ^ 2) * (s ^ 2 + s * s' + s' ^ 2) + 2 * (s * s') ^ 2 := by
    nlinarith [sq_nonneg (s * s'), sq_nonneg T, sq_nonneg (s - s')]
  have hdiff : acrossMiddle T s' * alongMiddle T s - acrossMiddle T s * alongMiddle T s' =
      (s' - s) * ((2 + T ^ 2) * (1 + T ^ 2) + 2 * (2 + T ^ 2) * (s * s') -
        (1 + T ^ 2) * (s ^ 2 + s * s' + s' ^ 2) + 2 * (s * s') ^ 2) := by
    rw [acrossMiddle, acrossMiddle, alongMiddle, alongMiddle]
    ring
  rw [hdiff]
  exact mul_pos (sub_pos.mpr hlt) hfactor

theorem slope_tan_self (q : ℝ) : slope (Real.tan q) (Real.tan q) = Real.tan (2 * q) := by
  rw [slope, acrossMiddle, alongMiddle, Real.tan_two_mul]
  congr 1 <;> ring

theorem continuousOn_slope {T : ℝ} (hT : T ^ 2 ≤ 172 / 1000) :
    ContinuousOn (slope T) {s | s ^ 2 ≤ T ^ 2} := by
  refine ContinuousOn.div ?_ ?_ fun s hs => (alongMiddle_pos hT hs).ne'
  · unfold acrossMiddle
    fun_prop
  · unfold alongMiddle
    fun_prop

/-- A complex number with a positive real part in polar form. -/
theorem exists_eq_mul_exp_arctan {x : ℝ} (hx : 0 < x) (y : ℝ) :
    ∃ r : ℝ, 0 < r ∧ (x + y * I : ℂ) = r * exp (Real.arctan (y / x) * I) := by
  have hcos := Real.cos_arctan_pos (y / x)
  have hsin : x / Real.cos (Real.arctan (y / x)) * Real.sin (Real.arctan (y / x)) = y := by
    rw [div_mul_eq_mul_div, mul_div_assoc, ← Real.tan_eq_sin_div_cos, Real.tan_arctan,
      mul_div_cancel₀ y hx.ne']
  refine ⟨x / Real.cos (Real.arctan (y / x)), div_pos hx hcos, ?_⟩
  rw [exp_mul_I, ← ofReal_cos, ← ofReal_sin, mul_add, ← mul_assoc, ← ofReal_mul, ← ofReal_mul, hsin,
    div_mul_cancel₀ x hcos.ne']

namespace Arc

variable (a : Arc ℝ)

/-- The share of its angle that a cubic has swept at a parameter. -/
noncomputable def share (t : ℝ) : ℝ := Scalar.half 1 +
  Real.arctan (slope (Real.tan a.quarter) (a.swing t)) / Scalar.radians a.span

variable {a}

theorem span_ne_zero (hsweep : a.sweepAngle ≠ 0) : a.span ≠ 0 :=
  div_ne_zero hsweep a.cubicCount_ne_zero

theorem quarter_ne_zero (hsweep : a.sweepAngle ≠ 0) : a.quarter ≠ 0 := by
  intro hzero
  have hspan := a.radians_span_eq
  rw [hzero, mul_zero] at hspan
  exact radians_ne_zero (span_ne_zero hsweep) hspan

theorem arctan_slope_tan_quarter :
    Real.arctan (slope (Real.tan a.quarter) (Real.tan a.quarter)) = 2 * a.quarter := by
  have hquarter := abs_le.mp a.abs_quarter_le
  have hpi := Real.pi_pos
  rw [slope_tan_self, Real.arctan_tan] <;> linarith [hquarter.1, hquarter.2]

theorem share_one (hsweep : a.sweepAngle ≠ 0) : a.share 1 = 1 := by
  have hne := a.quarter_ne_zero hsweep
  rw [share, swing_one, arctan_slope_tan_quarter, radians_span_eq, Scalar.half]
  field_simp
  norm_num

theorem share_zero (hsweep : a.sweepAngle ≠ 0) : a.share 0 = 0 := by
  have hne := a.quarter_ne_zero hsweep
  rw [share, swing_zero, slope_neg, Real.arctan_neg, arctan_slope_tan_quarter, radians_span_eq,
    Scalar.half]
  field_simp
  norm_num

theorem continuousOn_share : ContinuousOn a.share (Icc 0 1) := by
  have hcontinuous : Continuous a.swing := by
    unfold swing
    fun_prop
  have hslope := (continuousOn_slope a.sq_tan_quarter_le).comp hcontinuous.continuousOn
    fun t ht => a.sq_swing_le ht
  exact continuousOn_const.add ((Real.continuous_arctan.comp_continuousOn hslope).div_const _)

theorem strictMonoOn_share (hsweep : a.sweepAngle ≠ 0) : StrictMonoOn a.share (Icc 0 1) := by
  intro t ht t' ht' hlt
  have hquarter := abs_le.mp a.abs_quarter_le
  have hpi := Real.pi_pos
  have hs := a.sq_swing_le ht
  have hs' := a.sq_swing_le ht'
  have hgrows : t - (1 - t) < t' - (1 - t') := by linarith
  rw [share, share, radians_span_eq]
  refine add_lt_add_right ?_ _
  rcases lt_or_gt_of_ne (a.quarter_ne_zero hsweep) with hfalls | hrises
  · -- with falling angles the slope falls, and is divided by a negative span
    have htan : Real.tan a.quarter < 0 :=
      Real.tan_neg_of_neg_of_pi_div_two_lt hfalls (by linarith [hquarter.1])
    have hswing : a.swing t' < a.swing t := mul_lt_mul_of_neg_left hgrows htan
    have hslope := slope_lt a.sq_tan_quarter_le hs' hs hswing
    exact div_lt_div_of_neg_of_lt (by linarith) (Real.arctan_strictMono hslope)
  · have htan : 0 < Real.tan a.quarter :=
      Real.tan_pos_of_pos_of_lt_pi_div_two hrises (by linarith [hquarter.2])
    have hswing : a.swing t < a.swing t' := mul_lt_mul_of_pos_left hgrows htan
    have hslope := slope_lt a.sq_tan_quarter_le hs hs' hswing
    exact div_lt_div_of_pos_right (Real.arctan_strictMono hslope) (by linarith)

/-- The point of a cubic lies in the direction that it has swept to. -/
theorem exists_toUnit_pointAt_eq (ha : a.Proper) (hsweep : a.sweepAngle ≠ 0) (i : ℕ) {t : ℝ}
    (ht : t ∈ Icc 0 1) : ∃ r : ℝ, 0 < r ∧ a.toUnit ((a.piece i).pointAt t) =
      r * unitAt (a.jointAngle i + a.share t * a.span) := by
  have halong := alongMiddle_pos a.sq_tan_quarter_le (a.sq_swing_le ht)
  obtain ⟨r, hr, hpolar⟩ :=
    exists_eq_mul_exp_arctan halong (acrossMiddle (Real.tan a.quarter) (a.swing t))
  have hangle : a.jointAngle i + a.share t * a.span =
      a.middleAngle i + (a.share t - Scalar.half 1) * a.span := by
    rw [middleAngle, Scalar.half, Scalar.half]
    ring
  have hradians : Scalar.radians ((a.share t - Scalar.half 1) * a.span) =
      Real.arctan (slope (Real.tan a.quarter) (a.swing t)) := by
    rw [share, add_sub_cancel_left, radians_eq, mul_assoc, ← radians_eq]
    exact div_mul_cancel₀ _ (radians_ne_zero (span_ne_zero hsweep))
  refine ⟨Real.cos a.quarter ^ 2 * r, mul_pos (pow_pos cos_quarter_pos 2) hr, ?_⟩
  rw [toUnit_pointAt ha hsweep, hpolar, hangle, unitAt_add, ← slope, ← hradians, ← unitAt]
  push_cast
  ring

/-- A cubic from the ellipse to the ellipse that turns from an angle through a span. At every
parameter it has turned through a share of the span, which grows from nothing to all of it. -/
structure Sweeps (a : Arc ℝ) (c : CubicCurve ℝ) (angle span : ℝ) : Prop where
  start_eq : c.start = a.ellipseAt angle
  finish_eq : c.finish = a.ellipseAt (angle + span)
  turns : ∃ share : ℝ → ℝ, share 0 = 0 ∧ share 1 = 1 ∧ ContinuousOn share (Icc 0 1) ∧
    StrictMonoOn share (Icc 0 1) ∧ ∀ t ∈ Icc 0 1, ∃ r : ℝ, 0 < r ∧
      a.toUnit (c.pointAt t) = r * unitAt (angle + share t * span)

/-- A vector that points where the arc goes at a parameter. -/
def HeadsAlong (a : Arc ℝ) (t : ℝ) (v : Point ℝ) : Prop :=
  ∃ (k : ℝ) (rate : Point ℝ), 0 < k ∧ rate ≠ .origin ∧
    HasDerivAt (fun t => (a.point t).x) rate.x t ∧ HasDerivAt (fun t => (a.point t).y) rate.y t ∧
      v = rate * .ofReal k

/-- Cubics that cover the sweep of an arc in equal steps and are joined smoothly. A walk from the
start of the arc that goes on behind some of them stands at the start of the next, or where the arc
ends. -/
structure CoveredBy (a : Arc ℝ) (count : ℕ) (c : ℕ → CubicCurve ℝ) : Prop where
  elements_eq : a.elements =
    (List.range count).map fun i => .cubicTo (c i).control1 (c i).control2 (c i).finish
  step_le : |a.sweepAngle / count| ≤ 90
  sweeps : ∀ i < count,
    a.Sweeps (c i) (a.startAngle + i * (a.sweepAngle / count)) (a.sweepAngle / count)
  start_eq : (c 0).start = a.start
  finish_eq : (c (count - 1)).finish = a.finish
  joined : ∀ i, i + 1 < count → (c (i + 1)).start = (c i).finish
  ends : ∀ s : State ℝ, s.goal = .totalLength → 0 < s.tolerance → ∀ index k,
    ∀ᶠ budget in atTop, ∃ t, s.advanceAll budget index (a.elements.take k) = some (.walking t)
  walked : ∀ s : State ℝ, s.current = a.start → ∀ budget index k t,
    s.advanceAll budget index (a.elements.take k) = some (.walking t) →
      (k < count → t.current = (c k).start) ∧ (k = count → t.current = a.finish)
  first_handle : a.HeadsAlong 0 ((c 0).control1 - (c 0).start)
  last_handle : a.HeadsAlong 1 ((c (count - 1)).finish - (c (count - 1)).control2)
  mirrored : ∀ i, i + 1 < count →
    (c i).control2 + (c (i + 1)).control1 = (c i).finish + (c i).finish

theorem sweeps_piece (ha : a.Proper) (hsweep : a.sweepAngle ≠ 0) (i : ℕ) :
    a.Sweeps (a.piece i) (a.jointAngle i) a.span where
  start_eq := rfl
  finish_eq := by rw [← jointAngle_succ]; rfl
  turns := ⟨a.share, share_zero hsweep, share_one hsweep, continuousOn_share,
    strictMonoOn_share hsweep, fun _ ht => exists_toUnit_pointAt_eq ha hsweep i ht⟩

theorem derivative_ne_origin (ha : a.Proper) (hsweep : a.sweepAngle ≠ 0) (t : ℝ) :
    a.derivative t ≠ .origin := by
  intro hzero
  rw [derivative_eq] at hzero
  have hrate : ‖(Scalar.radians a.sweepAngle : ℝ) * (I * unitAt (a.angleAt t))‖ = 0 := by
    rw [ha.eq_zero_of_spread_eq hzero, norm_zero]
  rw [norm_mul, norm_mul, norm_unitAt, norm_I, norm_real, mul_one, mul_one, norm_eq_zero] at hrate
  exact radians_ne_zero hsweep hrate

theorem headsAlong_handle (ha : a.Proper) (hsweep : a.sweepAngle ≠ 0) (t : ℝ) :
    a.HeadsAlong t (a.spread (a.lever * (I * unitAt (a.angleAt t)))) :=
  ⟨a.handle, a.derivative t, a.handle_pos hsweep, derivative_ne_origin ha hsweep t,
    (a.hasDerivAt_point t).1, (a.hasDerivAt_point t).2, (a.derivative_mul_handle t).symm⟩

theorem control1_sub_start (i : ℕ) : (a.piece i).control1 - (a.piece i).start =
    a.spread (a.lever * (I * unitAt (a.jointAngle i))) := by
  rw [piece, fromUnit_add]
  apply Point.ext
  · exact add_sub_cancel_left _ _
  · exact add_sub_cancel_left _ _

theorem finish_sub_control2 (i : ℕ) : (a.piece i).finish - (a.piece i).control2 =
    a.spread (a.lever * (I * unitAt (a.jointAngle (i + 1)))) := by
  rw [piece, fromUnit_sub]
  apply Point.ext
  · exact sub_sub_cancel _ _
  · exact sub_sub_cancel _ _

/-- The handles on both sides of a joint are mirror images. -/
theorem control2_add_control1 (i : ℕ) : (a.piece i).control2 + (a.piece (i + 1)).control1 =
    (a.piece i).finish + (a.piece i).finish := by
  change a.fromUnit _ + a.fromUnit _ = a.fromUnit _ + a.fromUnit _
  rw [fromUnit_sub, fromUnit_add]
  apply Point.ext
  · exact sub_add_add_cancel (a.fromUnit _).x (a.fromUnit _).x _
  · exact sub_add_add_cancel (a.fromUnit _).y (a.fromUnit _).y _

theorem current_of_advanceAll_take (ha : a.Proper) (hsweep : a.sweepAngle ≠ 0) {s t : State ℝ}
    (hcurrent : s.current = a.start) {budget index k : ℕ} (hk : k ≤ a.cubicCount)
    (h : s.advanceAll budget index (a.elements.take k) = some (.walking t)) :
    t.current = a.ellipseAt (a.jointAngle k) :=
  (congrArg Pen.position (State.pen_of_advanceAll h)).trans
    (position_after_take ha hsweep hcurrent hk)

theorem coveredBy_piece (ha : a.Proper) (hsweep : a.sweepAngle ≠ 0) :
    a.CoveredBy a.cubicCount a.piece where
  elements_eq := elements_eq ha.point_one hsweep
  step_le := a.abs_span_le
  sweeps i _ := by
    rw [← span, ← jointAngle_eq]
    exact sweeps_piece ha hsweep i
  start_eq := ellipseAt_jointAngle_zero ha.point_zero
  finish_eq := by
    rw [piece, Nat.sub_add_cancel a.cubicCount_pos, ellipseAt_jointAngle_cubicCount ha.point_one]
  joined _ _ := rfl
  ends _ hs htolerance index _ := State.eventually_exists_advanceAll hs htolerance index _
  walked s hcurrent budget index k t h := by
    refine ⟨fun hk => current_of_advanceAll_take ha hsweep hcurrent hk.le h, fun hk => ?_⟩
    rw [current_of_advanceAll_take ha hsweep hcurrent hk.le h, hk,
      ellipseAt_jointAngle_cubicCount ha.point_one]
  first_handle := by
    have hzero : a.jointAngle 0 = a.angleAt 0 := by rw [jointAngle, Nat.cast_zero, zero_mul]
    rw [control1_sub_start, hzero]
    exact headsAlong_handle ha hsweep 0
  last_handle := by
    have hone : a.jointAngle a.cubicCount = a.angleAt 1 := by
      rw [jointAngle, cubicCount_mul_stepSize]
    rw [finish_sub_control2, Nat.sub_add_cancel a.cubicCount_pos, hone]
    exact headsAlong_handle ha hsweep 1
  mirrored i _ := control2_add_control1 i

/-- **The cubics of an arc cover its sweep and join smoothly.** An arc without a sweep is drawn by a
line. Any other is covered by as few cubics as sweep a quarter turn at most in equal steps. -/
theorem elements_cover_sweep (ha : a.Proper) :
    (a.sweepAngle = 0 → a.elements = [.lineTo a.finish]) ∧
    (a.sweepAngle ≠ 0 → 1 ≤ ⌈|a.sweepAngle| / 90⌉₊ ∧
      ∃ c : ℕ → CubicCurve ℝ, a.CoveredBy ⌈|a.sweepAngle| / 90⌉₊ c) := by
  refine ⟨fun hzero => ?_, fun hsweep => ?_⟩
  · rw [elements, if_pos (by simpa using hzero)]
  · rw [← a.cubicCount_eq hsweep]
    exact ⟨a.cubicCount_pos, a.piece, coveredBy_piece ha hsweep⟩

/-- Two cubics cover a half ellipse and meet at its side, where a walk stands between them. -/
theorem elements_cover_sweep_uprightHalf :
    uprightHalf.Proper ∧ uprightHalf.sweepAngle ≠ 0 ∧ ∃ c : ℕ → CubicCurve ℝ,
      uprightHalf.CoveredBy 2 c ∧ (c 0).finish = ⟨1, 0⟩ ∧ ∀ᶠ budget in atTop, ∃ t,
        { State.initial .totalLength (0 : ℝ) 1 with current := uprightHalf.start }.advanceAll
            budget 0 (uprightHalf.elements.take 1) = some (.walking t) ∧ t.current = ⟨1, 0⟩ := by
  refine ⟨uprightHalf_proper, uprightHalf_sweepAngle_ne_zero, ?_⟩
  obtain ⟨-, c, hc⟩ := (elements_cover_sweep uprightHalf_proper).2 uprightHalf_sweepAngle_ne_zero
  rw [← cubicCount_eq _ uprightHalf_sweepAngle_ne_zero, uprightHalf_cubicCount] at hc
  have hangle : uprightHalf.startAngle + (0 : ℕ) * (uprightHalf.sweepAngle / (2 : ℕ)) +
      uprightHalf.sweepAngle / (2 : ℕ) = -90 := by
    rw [uprightHalf_sweepAngle]
    change (0 : ℝ) + (0 : ℕ) * (-180 / (2 : ℕ)) + -180 / (2 : ℕ) = -90
    norm_num
  have hquarterTurn : (Scalar.radians (-90 : ℝ) : ℝ) = -(Real.pi / 2) := by
    rw [radians_eq]
    ring
  have hside : (c 0).finish = ⟨1, 0⟩ := by
    rw [(hc.sweeps 0 two_pos).finish_eq, hangle, uprightHalf_ellipseAt, hquarterTurn, Real.sin_neg,
      Real.cos_neg, Real.sin_pi_div_two, Real.cos_pi_div_two, neg_neg, mul_zero]
  refine ⟨c, hc, hside, ?_⟩
  filter_upwards [hc.ends { State.initial .totalLength (0 : ℝ) 1 with
    current := uprightHalf.start } rfl zero_lt_one 0 1] with budget hends
  obtain ⟨t, ht⟩ := hends
  have hstands := (hc.walked _ rfl budget 0 1 t ht).1 one_lt_two
  exact ⟨t, ht, hstands.trans ((hc.joined 0 one_lt_two).trans hside)⟩

end Arc

end ArcLength
