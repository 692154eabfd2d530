import Mathlib
import ArcLength.Proofs.Pieces
import ArcLength.Proofs.Plane

/-!
# Subdivision ends in the exact plane

The second differences of the control points bound what a control polygon exceeds its chord by, and
halving divides them by four. So every piece is flat after enough halvings, and subdivision ends for
every tolerance above zero.
-/

namespace ArcLength

open Filter

/-- A curve of the exact plane. Its bend bounds how far the polygon exceeds the chord, and halving
divides it by four. -/
class Curve.Planar (κ : Type) [Curve κ ℝ] extends Curve.Lawful κ where
  bend : κ → ℝ
  chord_le : ∀ c : κ, chord c ≤ polygonLength c
  slack_le : ∀ c : κ, polygonLength c - chord c ≤ 4 * bend c
  bend_left : ∀ c : κ, bend (split c).1 ≤ bend c / 4
  bend_right : ∀ c : κ, bend (split c).2 ≤ bend c / 4

theorem norm_polygon_three_le (a b c : ℂ) :
    ‖b - a‖ + ‖c - b‖ ≤ ‖c - a‖ + ‖a - 2 * b + c‖ := by
  have hfirst : 2 * ‖b - a‖ ≤ ‖c - a‖ + ‖a - 2 * b + c‖ := by
    calc 2 * ‖b - a‖ = ‖2 * (b - a)‖ := by rw [norm_mul, RCLike.norm_ofNat]
      _ = ‖(c - a) - (a - 2 * b + c)‖ := by congr 1; ring
      _ ≤ ‖c - a‖ + ‖a - 2 * b + c‖ := norm_sub_le _ _
  have hsecond : 2 * ‖c - b‖ ≤ ‖c - a‖ + ‖a - 2 * b + c‖ := by
    calc 2 * ‖c - b‖ = ‖2 * (c - b)‖ := by rw [norm_mul, RCLike.norm_ofNat]
      _ = ‖(c - a) + (a - 2 * b + c)‖ := by congr 1; ring
      _ ≤ ‖c - a‖ + ‖a - 2 * b + c‖ := norm_add_le _ _
  linarith

theorem norm_polygon_four_le (a b c d : ℂ) :
    ‖b - a‖ + ‖c - b‖ + ‖d - c‖ ≤
      ‖d - a‖ + 4 * max ‖a - 2 * b + c‖ ‖b - 2 * c + d‖ := by
  have hscale (z : ℂ) : 3 * ‖z‖ = ‖3 * z‖ := by rw [norm_mul, RCLike.norm_ofNat]
  have hdouble (z : ℂ) : ‖2 * z‖ = 2 * ‖z‖ := by rw [norm_mul, RCLike.norm_ofNat]
  have hfirst : 3 * ‖b - a‖ ≤ ‖d - a‖ + (2 * ‖a - 2 * b + c‖ + ‖b - 2 * c + d‖) := by
    calc 3 * ‖b - a‖ = ‖(d - a) - (2 * (a - 2 * b + c) + (b - 2 * c + d))‖ := by
          rw [hscale]
          congr 1
          ring
      _ ≤ ‖d - a‖ + ‖2 * (a - 2 * b + c) + (b - 2 * c + d)‖ := norm_sub_le _ _
      _ ≤ ‖d - a‖ + (‖2 * (a - 2 * b + c)‖ + ‖b - 2 * c + d‖) := by
          gcongr
          exact norm_add_le _ _
      _ = ‖d - a‖ + (2 * ‖a - 2 * b + c‖ + ‖b - 2 * c + d‖) := by rw [hdouble]
  have hsecond : 3 * ‖c - b‖ ≤ ‖d - a‖ + (‖a - 2 * b + c‖ + ‖b - 2 * c + d‖) := by
    calc 3 * ‖c - b‖ = ‖(d - a) + ((a - 2 * b + c) - (b - 2 * c + d))‖ := by
          rw [hscale]
          congr 1
          ring
      _ ≤ ‖d - a‖ + ‖(a - 2 * b + c) - (b - 2 * c + d)‖ := norm_add_le _ _
      _ ≤ ‖d - a‖ + (‖a - 2 * b + c‖ + ‖b - 2 * c + d‖) := by
          gcongr
          exact norm_sub_le _ _
  have hthird : 3 * ‖d - c‖ ≤ ‖d - a‖ + (‖a - 2 * b + c‖ + 2 * ‖b - 2 * c + d‖) := by
    calc 3 * ‖d - c‖ = ‖(d - a) + ((a - 2 * b + c) + 2 * (b - 2 * c + d))‖ := by
          rw [hscale]
          congr 1
          ring
      _ ≤ ‖d - a‖ + ‖(a - 2 * b + c) + 2 * (b - 2 * c + d)‖ := norm_add_le _ _
      _ ≤ ‖d - a‖ + (‖a - 2 * b + c‖ + ‖2 * (b - 2 * c + d)‖) := by
          gcongr
          exact norm_add_le _ _
      _ = ‖d - a‖ + (‖a - 2 * b + c‖ + 2 * ‖b - 2 * c + d‖) := by rw [hdouble]
  have hleft := le_max_left ‖a - 2 * b + c‖ ‖b - 2 * c + d‖
  have hright := le_max_right ‖a - 2 * b + c‖ ‖b - 2 * c + d‖
  linarith [norm_nonneg (a - 2 * b + c)]

noncomputable def secondDifference (p q r : Point ℝ) : ℂ :=
  p.toComplex - 2 * q.toComplex + r.toComplex

namespace QuadraticCurve

variable (c : QuadraticCurve ℝ)

noncomputable def bend : ℝ := ‖secondDifference c.start c.control c.finish‖

theorem polygonLength_eq_norm :
    c.polygonLength = ‖c.control.toComplex - c.start.toComplex‖ +
      ‖c.finish.toComplex - c.control.toComplex‖ := by
  rw [← Point.distance_eq_norm, ← Point.distance_eq_norm]
  rfl

theorem bend_split : c.split.1.bend = c.bend / 4 ∧ c.split.2.bend = c.bend / 4 := by
  have hquarter (z : ℂ) : ‖z‖ / 4 = ‖z / 4‖ := by rw [norm_div, RCLike.norm_ofNat]
  simp only [bend, split, secondDifference, Point.toComplex_midpoint, hquarter]
  constructor <;> congr 1 <;> ring

noncomputable instance : Curve.Planar (QuadraticCurve ℝ) where
  bend := bend
  chord_le c := Point.distance_triangle _ _ _
  slack_le c := by
    have hpolygon := norm_polygon_three_le c.start.toComplex c.control.toComplex c.finish.toComplex
    have hbend : 0 ≤ c.bend := norm_nonneg _
    rw [← polygonLength_eq_norm, ← Point.distance_eq_norm] at hpolygon
    change c.polygonLength - c.start.distance c.finish ≤ 4 * c.bend
    change c.polygonLength ≤ c.start.distance c.finish + c.bend at hpolygon
    linarith
  bend_left c := le_of_eq c.bend_split.1
  bend_right c := le_of_eq c.bend_split.2

end QuadraticCurve

namespace CubicCurve

variable (c : CubicCurve ℝ)

noncomputable def bend : ℝ :=
  max ‖secondDifference c.start c.control1 c.control2‖
    ‖secondDifference c.control1 c.control2 c.finish‖

theorem polygonLength_eq_norm :
    c.polygonLength = ‖c.control1.toComplex - c.start.toComplex‖ +
      ‖c.control2.toComplex - c.control1.toComplex‖ +
      ‖c.finish.toComplex - c.control2.toComplex‖ := by
  simp only [← Point.distance_eq_norm]
  rfl

/-- The second differences of the halves are a quarter of an outer one, and an eighth of both. -/
theorem bend_of_split {first second : ℂ} (hfirst : ‖first‖ ≤ c.bend) (hsecond : ‖second‖ ≤ c.bend) :
    ‖(first + second) / 8‖ ≤ c.bend / 4 := by
  calc ‖(first + second) / 8‖ = ‖first + second‖ / 8 := by rw [norm_div, RCLike.norm_ofNat]
    _ ≤ (‖first‖ + ‖second‖) / 8 := by
        gcongr
        exact norm_add_le _ _
    _ ≤ c.bend / 4 := by linarith

theorem bend_split_le : c.split.1.bend ≤ c.bend / 4 ∧ c.split.2.bend ≤ c.bend / 4 := by
  have hfirst : ‖secondDifference c.start c.control1 c.control2‖ ≤ c.bend := le_max_left _ _
  have hsecond : ‖secondDifference c.control1 c.control2 c.finish‖ ≤ c.bend := le_max_right _ _
  have hquarter (z : ℂ) (hz : ‖z‖ ≤ c.bend) : ‖z / 4‖ ≤ c.bend / 4 := by
    rw [norm_div, RCLike.norm_ofNat]
    linarith
  have houter := hquarter _ hfirst
  have hinner := hquarter _ hsecond
  have hmixed := c.bend_of_split hfirst hsecond
  constructor
  · refine max_le (houter.trans_eq' ?_) (hmixed.trans_eq' ?_)
    · congr 1
      simp only [split, secondDifference, Point.toComplex_midpoint]
      ring
    · congr 1
      simp only [split, secondDifference, Point.toComplex_midpoint]
      ring
  · refine max_le (hmixed.trans_eq' ?_) (hinner.trans_eq' ?_)
    · congr 1
      simp only [split, secondDifference, Point.toComplex_midpoint]
      ring
    · congr 1
      simp only [split, secondDifference, Point.toComplex_midpoint]
      ring

noncomputable instance : Curve.Planar (CubicCurve ℝ) where
  bend := bend
  chord_le c := by
    have htail := Point.distance_triangle c.control1 c.control2 c.finish
    have hwhole := Point.distance_triangle c.start c.control1 c.finish
    change c.start.distance c.finish ≤ c.start.distance c.control1 +
      c.control1.distance c.control2 + c.control2.distance c.finish
    linarith
  slack_le c := by
    have hpolygon := norm_polygon_four_le c.start.toComplex c.control1.toComplex
      c.control2.toComplex c.finish.toComplex
    rw [← polygonLength_eq_norm, ← Point.distance_eq_norm] at hpolygon
    change c.polygonLength - c.start.distance c.finish ≤ 4 * c.bend
    change c.polygonLength ≤ c.start.distance c.finish + 4 * c.bend at hpolygon
    linarith
  bend_left c := c.bend_split_le.1
  bend_right c := c.bend_split_le.2

end CubicCurve

namespace Curve

variable {κ : Type} [Curve κ ℝ] [Planar κ] {tolerance : ℝ}

omit [Planar κ] in
theorem isFlat_iff {c : κ} : isFlat tolerance c = true ↔ polygonLength c - chord c ≤ tolerance := by
  simp [isFlat]

theorem exists_flatPieces_of_bend_le (depth : Nat) {c : κ}
    (hbend : 4 * Planar.bend c ≤ tolerance * 4 ^ depth) :
    ∃ ps, flatPieces tolerance depth c = some ps := by
  -- the bound on the bend passes to the halves, since each halving divides the bend by four
  induction depth generalizing c with
  | zero =>
      refine ⟨[c], flatPieces_of_flat (isFlat_iff.mpr ?_) 0⟩
      have hslack := Planar.slack_le c
      linarith
  | succ depth ih =>
      cases hflat : isFlat tolerance c with
      | true => exact ⟨[c], flatPieces_of_flat hflat _⟩
      | false =>
          rw [pow_succ] at hbend
          have hleft := Planar.bend_left c
          have hright := Planar.bend_right c
          obtain ⟨first, hfirst⟩ := ih (c := (split c).1) (by linarith)
          obtain ⟨second, hsecond⟩ := ih (c := (split c).2) (by linarith)
          exact ⟨first ++ second, (flatPieces_succ_of_not_flat hflat).mpr
            ⟨first, second, hfirst, hsecond, rfl⟩⟩

theorem exists_flatPieces (htolerance : 0 < tolerance) (c : κ) :
    ∃ depth ps, flatPieces tolerance depth c = some ps := by
  obtain ⟨depth, hdepth⟩ := pow_unbounded_of_one_lt (4 * Planar.bend c / tolerance)
    (by norm_num : (1 : ℝ) < 4)
  refine ⟨depth, exists_flatPieces_of_bend_le depth ?_⟩
  rw [div_lt_iff₀ htolerance] at hdepth
  linarith

/-- The flat pieces of a curve, at whatever depth the last of them lies. -/
noncomputable def pieces (tolerance : ℝ) (c : κ) : List κ :=
  open Classical in
  if h : ∃ depth ps, flatPieces tolerance depth c = some ps then h.choose_spec.choose else []

theorem exists_flatPieces_eq_pieces (htolerance : 0 < tolerance) (c : κ) :
    ∃ depth, flatPieces tolerance depth c = some (pieces tolerance c) := by
  have h := exists_flatPieces htolerance c
  refine ⟨h.choose, ?_⟩
  rw [pieces, dif_pos h]
  exact h.choose_spec.choose_spec

theorem eventually_measuredAs (htolerance : 0 < tolerance) (c : κ) :
    ∀ᶠ budget in atTop, MeasuredAs budget tolerance c (pieces tolerance c) := by
  obtain ⟨depth, hdepth⟩ := exists_flatPieces_eq_pieces htolerance c
  filter_upwards [eventually_ge_atTop (2 * (pieces tolerance c).length)] with budget hbudget
  exact measuredAs_of_flatPieces hdepth (by omega)

theorem isFlat_of_mem_pieces (htolerance : 0 < tolerance) {c : κ} :
    ∀ p ∈ pieces tolerance c, isFlat tolerance p = true := by
  obtain ⟨depth, hdepth⟩ := exists_flatPieces_eq_pieces htolerance c
  refine flatPieces_induction (P := fun _ ps => ∀ p ∈ ps, isFlat tolerance p = true) ?_ ?_ hdepth
  · intro c hflat p hp
    rwa [List.mem_singleton.mp hp]
  · intro c first second hfirst hsecond _ p hp
    rcases List.mem_append.mp hp with hmem | hmem
    · exact hfirst p hmem
    · exact hsecond p hmem

end Curve

end ArcLength
