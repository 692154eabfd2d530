import Mathlib
import ArcLength.Proofs.Budget
import ArcLength.Proofs.Flatness
import ArcLength.Proofs.Steps

/-!
# The depth of subdivision in the exact plane

Every halving divides the bend of a curve by four, so the slack of a piece falls with its depth
whichever halves lead to it. The depth at which the bound meets the tolerance bounds the depth of
every split and with it the number of steps.
-/

namespace ArcLength

namespace Curve

variable {κ : Type} [Curve κ ℝ] [Planar κ] {tolerance : ℝ}

theorem bend_half_le (c : κ) (side : Side) :
    Planar.bend (half c side) ≤ Planar.bend c / 4 := by
  cases side with
  | left => exact Planar.bend_left c
  | right => exact Planar.bend_right c

theorem bend_descend_le (c : κ) (w : List Side) :
    Planar.bend (descend c w) ≤ Planar.bend c / 4 ^ w.length := by
  induction w generalizing c with
  | nil => simp [descend]
  | cons side w ih =>
      calc Planar.bend (descend (half c side) w)
          ≤ Planar.bend (half c side) / 4 ^ w.length := ih _
        _ ≤ Planar.bend c / 4 / 4 ^ w.length := by
            gcongr
            exact bend_half_le c side
        _ = Planar.bend c / 4 ^ (side :: w).length := by
            rw [div_div, List.length_cons, pow_succ']

theorem slack_descend_le (c : κ) (w : List Side) :
    polygonLength (descend c w) - chord (descend c w) ≤ 4 * Planar.bend c / 4 ^ w.length := by
  calc polygonLength (descend c w) - chord (descend c w)
      ≤ 4 * Planar.bend (descend c w) := Planar.slack_le _
    _ ≤ 4 * (Planar.bend c / 4 ^ w.length) := by
        gcongr
        exact bend_descend_le c w
    _ = 4 * Planar.bend c / 4 ^ w.length := by ring

theorem isFlat_descend {c : κ} {w : List Side}
    (hdepth : 4 * Planar.bend c / 4 ^ w.length ≤ tolerance) :
    isFlat tolerance (descend c w) = true :=
  isFlat_iff.mpr ((slack_descend_le c w).trans hdepth)

theorem exists_measure_of_depth {c : κ} {depth budget : ℕ}
    (hdepth : 4 * Planar.bend c / 4 ^ depth ≤ tolerance) (hbudget : 2 ^ (depth + 1) - 1 ≤ budget)
    (enough : ℝ → Bool) : ∃ m, measure budget tolerance enough c = some m := by
  have hpow : (0 : ℝ) < 4 ^ depth := by positivity
  rw [div_le_iff₀ hpow] at hdepth
  obtain ⟨ps, hps⟩ := exists_flatPieces_of_bend_le depth hdepth
  exact exists_measure_of_flatPieces hps hbudget enough

end Curve

open Curve

/-- What a state finds when it measures a curve: its steps are bounded, and its pieces are flatter
by a factor of four with every halving, where `bend` bounds the second differences. -/
structure State.Subdivides {κ : Type} [Curve κ ℝ] (s : State ℝ) (c : κ) (bend : ℝ) : Prop where
  ends : ∃ steps, ∀ budget, steps ≤ budget →
    ∃ length t, s.curveLength budget c = some (length, t)
  ends_within : ∀ depth : ℕ, 4 * bend / 4 ^ depth ≤ s.tolerance →
    ∀ budget, 2 ^ (depth + 1) - 1 ≤ budget → ∃ length t, s.curveLength budget c = some (length, t)
  slack_le : ∀ w : List Side,
    polygonLength (descend c w) - chord (descend c w) ≤ 4 * bend / 4 ^ w.length
  flat : ∀ w : List Side, 4 * bend / 4 ^ w.length ≤ s.tolerance →
    isFlat s.tolerance (descend c w) = true

theorem State.subdivides_of_planar {κ : Type} [Curve κ ℝ] [Planar κ] {s : State ℝ}
    (htolerance : 0 < s.tolerance) (c : κ) : s.Subdivides c (Planar.bend c) := by
  have hwithin : ∀ depth : ℕ, 4 * Planar.bend c / 4 ^ depth ≤ s.tolerance →
      ∀ budget, 2 ^ (depth + 1) - 1 ≤ budget →
        ∃ length t, s.curveLength budget c = some (length, t) := by
    intro depth hdepth budget hbudget
    obtain ⟨m, hmeasure⟩ := exists_measure_of_depth hdepth hbudget s.passes
    rw [curveLength_eq, hmeasure]
    exact ⟨_, _, rfl⟩
  obtain ⟨depth, hdepth⟩ := pow_unbounded_of_one_lt (4 * Planar.bend c / s.tolerance)
    (by norm_num : (1 : ℝ) < 4)
  have hmeets : 4 * Planar.bend c / 4 ^ depth ≤ s.tolerance := by
    rw [div_lt_iff₀ htolerance] at hdepth
    rw [div_le_iff₀ (by positivity)]
    linarith
  exact ⟨⟨_, hwithin depth hmeets⟩, hwithin, slack_descend_le c, fun _ => isFlat_descend⟩

/-- **Subdivision ends, and no deeper than the second differences ask for.** From every state with
a tolerance above zero a quadratic or a cubic is measured in finitely many steps. With `M` the
largest norm of its second differences, a piece of depth `n` has at most `4 * M / 4 ^ n` of slack.
It is not split if that is within the tolerance, and then `2 ^ (n + 1) - 1` steps suffice. -/
theorem State.subdivides_quadratic_and_cubic (s : State ℝ) (htolerance : 0 < s.tolerance) :
    (∀ c : QuadraticCurve ℝ,
      s.Subdivides c ‖secondDifference c.start c.control c.finish‖) ∧
    ∀ c : CubicCurve ℝ,
      s.Subdivides c (max ‖secondDifference c.start c.control1 c.control2‖
        ‖secondDifference c.control1 c.control2 c.finish‖) :=
  ⟨fun c => subdivides_of_planar htolerance c, fun c => subdivides_of_planar htolerance c⟩

/-- A point query on a curve with the second difference `(3, 4)` and a tolerance that one halving
meets. -/
theorem State.curveLength_three_steps :
    0 < (State.initial .pointAtLength 1 5 : State ℝ).tolerance ∧
      ∃ length t, (State.initial .pointAtLength 1 5 : State ℝ).curveLength 3
        (⟨⟨0, 0⟩, ⟨0, 2⟩, ⟨3, 8⟩⟩ : QuadraticCurve ℝ) = some (length, t) := by
  have htolerance : 0 < (State.initial .pointAtLength 1 5 : State ℝ).tolerance := by
    change (0 : ℝ) < 5
    norm_num
  obtain ⟨hquadratic, -⟩ := State.subdivides_quadratic_and_cubic _ htolerance
  have hsubdivides := hquadratic ⟨⟨0, 0⟩, ⟨0, 2⟩, ⟨3, 8⟩⟩
  have hbend : ‖secondDifference ⟨0, 0⟩ ⟨0, 2⟩ ⟨3, 8⟩‖ = 5 := by
    have hdifference : secondDifference ⟨0, 0⟩ ⟨0, 2⟩ ⟨3, 8⟩ = ⟨3, 4⟩ := by
      apply Complex.ext <;> norm_num [secondDifference, Point.toComplex]
    rw [hdifference, Complex.norm_def, Complex.normSq_mk]
    rw [show (3 : ℝ) * 3 + 4 * 4 = 5 ^ 2 by norm_num, Real.sqrt_sq (by norm_num)]
  refine ⟨htolerance, hsubdivides.ends_within 1 ?_ 3 (by norm_num)⟩
  change 4 * ‖secondDifference ⟨0, 0⟩ ⟨0, 2⟩ ⟨3, 8⟩‖ / 4 ^ 1 ≤ (5 : ℝ)
  rw [hbend]
  norm_num

end ArcLength
