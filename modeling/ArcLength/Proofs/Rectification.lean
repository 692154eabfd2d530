import Mathlib
import ArcLength.Proofs.Itinerary
import ArcLength.Proofs.Parametrization
import ArcLength.Proofs.Stop

/-!
# Measured length and arc length

The polygons of the flat pieces of a curve are at least as long as the arc, since each is at least
as long as its own part of it. They are no longer than the chords of the pieces by more than the
tolerance each, and chords are never longer than the arc. Splitting takes corners off a polygon, so
their sum is at most the polygon of the curve.
-/

namespace ArcLength

open Set Filter

/-- The length of the line through points in order. -/
noncomputable def polyline : List (Point ℝ) → ℝ
  | p :: q :: rest => p.distance q + polyline (q :: rest)
  | _ => 0

theorem polyline_nonneg (ps : List (Point ℝ)) : 0 ≤ polyline ps := by
  fun_induction polyline ps with
  | case1 p q rest ih => exact add_nonneg (Point.distance_nonneg p q) ih
  | case2 => exact le_rfl

namespace Curve

variable {κ : Type} [Curve κ ℝ] [Parametric κ] {tolerance : ℝ} {depth : ℕ} {c : κ} {ps : List κ}

theorem edist_trace (c : κ) (s t : ℝ) : edist (trace c s) (trace c t) =
    ENNReal.ofReal ((Parametric.pointAt c s).distance (Parametric.pointAt c t)) := by
  rw [edist_comm, edist_dist, dist_eq_norm, Point.distance_eq_norm]
  rfl

theorem polyline_le_variation (c : κ) {a : ℝ} {ts : List ℝ} (hsorted : (a :: ts).Pairwise (· ≤ ·))
    (hle : ∀ t ∈ a :: ts, t ≤ 1) :
    ENNReal.ofReal (polyline ((a :: ts).map (Parametric.pointAt c))) ≤
      eVariationOn (trace c) (Icc a 1) := by
  induction ts generalizing a with
  | nil => simp [polyline]
  | cons b ts ih =>
      have hab : a ≤ b := List.rel_of_pairwise_cons hsorted List.mem_cons_self
      have hb : b ≤ 1 := hle b (by simp)
      have hrest := ih hsorted.of_cons fun t ht => hle t (List.mem_cons_of_mem a ht)
      have hstep := eVariationOn.edist_le (trace c) (s := Icc a b) (left_mem_Icc.mpr hab)
        (right_mem_Icc.mpr hab)
      have hsum := eVariationOn.Icc_add_Icc (trace c) (s := univ) hab hb (mem_univ _)
      simp only [univ_inter] at hsum
      rw [edist_trace] at hstep
      calc ENNReal.ofReal (polyline ((a :: b :: ts).map (Parametric.pointAt c)))
          = ENNReal.ofReal ((Parametric.pointAt c a).distance (Parametric.pointAt c b)) +
            ENNReal.ofReal (polyline ((b :: ts).map (Parametric.pointAt c))) :=
            ENNReal.ofReal_add (Point.distance_nonneg _ _) (polyline_nonneg _)
        _ ≤ eVariationOn (trace c) (Icc a b) + eVariationOn (trace c) (Icc b 1) :=
            add_le_add hstep hrest
        _ = eVariationOn (trace c) (Icc a 1) := hsum

/-- No line through points of a curve in order is longer than the arc. -/
theorem polyline_le_arcLength (c : κ) {ts : List ℝ} (hsorted : ts.Pairwise (· ≤ ·))
    (hmem : ∀ t ∈ ts, t ∈ Icc (0 : ℝ) 1) :
    ENNReal.ofReal (polyline (ts.map (Parametric.pointAt c))) ≤ arcLength c := by
  cases ts with
  | nil => simp [polyline]
  | cons a ts =>
      calc ENNReal.ofReal (polyline ((a :: ts).map (Parametric.pointAt c)))
          ≤ eVariationOn (trace c) (Icc a 1) :=
            polyline_le_variation c hsorted fun t ht => (hmem t ht).2
        _ ≤ arcLength c := eVariationOn.mono _ (Icc_subset_Icc_left (hmem a List.mem_cons_self).1)

theorem arcLength_le_walked (h : flatPieces tolerance depth c = some ps) :
    arcLength c ≤ ENNReal.ofReal (walked (ps.map Leg.ofPiece)) := by
  refine flatPieces_induction
    (P := fun c ps => arcLength c ≤ ENNReal.ofReal (walked (ps.map Leg.ofPiece))) ?_ ?_ h
  · intro c _
    simpa [Leg.ofPiece] using arcLength_le_polygonLength c
  · intro c first second hfirst hsecond _
    rw [← arcLength_halves, List.map_append, walked_append,
      ENNReal.ofReal_add (walked_nonneg _) (walked_nonneg _)]
    exact add_le_add hfirst hsecond

theorem walked_le_polygonLength (h : flatPieces tolerance depth c = some ps) :
    walked (ps.map Leg.ofPiece) ≤ polygonLength c := by
  refine flatPieces_induction (P := fun c ps => walked (ps.map Leg.ofPiece) ≤ polygonLength c)
    ?_ ?_ h
  · intro c _
    simp [Leg.ofPiece]
  · intro c first second hfirst hsecond _
    rw [List.map_append, walked_append]
    exact (add_le_add hfirst hsecond).trans (Parametric.polygonLength_halves_le c)

theorem chords_le_arcLength (h : flatPieces tolerance depth c = some ps) :
    ENNReal.ofReal (ps.map chord).sum ≤ arcLength c := by
  refine flatPieces_induction
    (P := fun c ps => ENNReal.ofReal (ps.map chord).sum ≤ arcLength c) ?_ ?_ h
  · intro c _
    simpa using chord_le_arcLength c
  · intro c first second hfirst hsecond _
    rw [← arcLength_halves, List.map_append, List.sum_append]
    exact ENNReal.ofReal_add_le.trans (add_le_add hfirst hsecond)

omit [Parametric κ] in
theorem walked_le_chords [Planar κ] (h : flatPieces tolerance depth c = some ps) :
    walked (ps.map Leg.ofPiece) ≤ (ps.map chord).sum + ps.length * tolerance := by
  refine flatPieces_induction (P := fun _ ps =>
    walked (ps.map Leg.ofPiece) ≤ (ps.map chord).sum + ps.length * tolerance) ?_ ?_ h
  · intro c hflat
    have hslack := isFlat_iff.mp hflat
    simp only [List.map_cons, List.map_nil, walked_cons, walked_nil, List.sum_cons, List.sum_nil,
      List.length_singleton, Nat.cast_one, Leg.ofPiece]
    linarith
  · intro c first second hfirst hsecond _
    simp only [List.map_append, walked_append, List.sum_append, List.length_append, Nat.cast_add]
    linarith

omit [Parametric κ] in
/-- The chords of connected pieces make up the line through their ends. -/
theorem polyline_ends [Planar κ] {p q : Point ℝ} (h : Connects p (ps.map Leg.ofPiece) q) :
    polyline (p :: ps.map finish) = (ps.map chord).sum := by
  induction ps generalizing p with
  | nil => rfl
  | cons c ps ih =>
      obtain ⟨rfl, hrest⟩ := h
      calc polyline (start c :: finish c :: ps.map finish)
          = chord c + polyline (finish c :: ps.map finish) := rfl
        _ = chord c + (ps.map chord).sum := congrArg (chord c + ·) (ih hrest)
        _ = ((c :: ps).map chord).sum := by rw [List.map_cons, List.sum_cons]

end Curve

open Curve

/-- What the whole length of a curve, measured from a state, comes to: it is the polygons of the
flat pieces, no shorter than the arc or any line inscribed in it, and longer than the line through
the ends of the pieces, or the arc, by no more than the tolerance for each piece. -/
structure State.Rectifies {κ : Type} [Curve κ ℝ] [Parametric κ] (s : State ℝ) (c : κ)
    (pieces : List κ) (length : ℝ) : Prop where
  measured : ∀ᶠ budget in atTop, ∃ t, s.curveLength budget c = some (length, t)
  flatPieces_eq : ∃ depth, flatPieces s.tolerance depth c = some pieces
  inscribed_le : ∀ ts : List ℝ, ts.Pairwise (· ≤ ·) → (∀ t ∈ ts, t ∈ Icc (0 : ℝ) 1) →
    polyline (ts.map (Parametric.pointAt c)) ≤ length
  chord_le : chord c ≤ length
  arcLength_le : arcLength c ≤ ENNReal.ofReal length
  le_polyline : length ≤ polyline (start c :: pieces.map finish) + pieces.length * s.tolerance
  le_arcLength : ENNReal.ofReal length ≤
    arcLength c + ENNReal.ofReal (pieces.length * s.tolerance)
  le_polygonLength : length ≤ polygonLength c

theorem State.rectifies_of_parametric {κ : Type} [Curve κ ℝ] [Parametric κ] {s : State ℝ}
    (hgoal : s.goal = .totalLength) (htolerance : 0 < s.tolerance) (c : κ) :
    s.Rectifies c (pieces s.tolerance c) (walked ((pieces s.tolerance c).map Leg.ofPiece)) := by
  obtain ⟨depth, hpieces⟩ := exists_flatPieces_eq_pieces htolerance c
  have harc := arcLength_le_walked hpieces
  have hchords := chords_le_arcLength hpieces
  have hslack := walked_le_chords hpieces
  have hends := polyline_ends (connects_pieces htolerance c)
  refine ⟨?_, ⟨depth, hpieces⟩, ?_, ?_, harc, ?_, ?_, walked_le_polygonLength hpieces⟩
  · filter_upwards [eventually_measuredAs htolerance c] with budget hmeasured
    obtain ⟨last, hmeasure⟩ := hmeasured.exists_measure_never
    have hquery : s.isLengthQuery = false := by rw [isLengthQuery, hgoal]; rfl
    rw [curveLength_eq, passes_of_not_isLengthQuery hquery, hmeasure]
    exact ⟨_, rfl⟩
  · intro ts hsorted hmem
    exact (ENNReal.ofReal_le_ofReal_iff (walked_nonneg _)).mp
      ((polyline_le_arcLength c hsorted hmem).trans harc)
  · exact (ENNReal.ofReal_le_ofReal_iff (walked_nonneg _)).mp ((chord_le_arcLength c).trans harc)
  · rw [hends]
    exact hslack
  · calc ENNReal.ofReal (walked ((pieces s.tolerance c).map Leg.ofPiece))
        ≤ ENNReal.ofReal (((pieces s.tolerance c).map chord).sum +
            (pieces s.tolerance c).length * s.tolerance) := ENNReal.ofReal_le_ofReal hslack
      _ ≤ ENNReal.ofReal ((pieces s.tolerance c).map chord).sum +
            ENNReal.ofReal ((pieces s.tolerance c).length * s.tolerance) := ENNReal.ofReal_add_le
      _ ≤ arcLength c + ENNReal.ofReal ((pieces s.tolerance c).length * s.tolerance) := by
          gcongr

/-- **Measured length against arc length.** The whole length of a quadratic or a cubic is found for
every tolerance above zero. It is at least the length of every inscribed line, the chord among them,
and so at least the arc length. It is at most the length of the line through the ends of the flat
pieces, and so at most the arc length, with the tolerance added for each piece. It is at most the
length of the control polygon. -/
theorem State.rectifies_quadratic_and_cubic (s : State ℝ) (hgoal : s.goal = .totalLength)
    (htolerance : 0 < s.tolerance) :
    (∀ c : QuadraticCurve ℝ, ∃ pieces length, s.Rectifies c pieces length) ∧
      ∀ c : CubicCurve ℝ, ∃ pieces length, s.Rectifies c pieces length :=
  ⟨fun c => ⟨_, _, rectifies_of_parametric hgoal htolerance c⟩,
    fun c => ⟨_, _, rectifies_of_parametric hgoal htolerance c⟩⟩

/-- A curve through `(3, 4)` from the origin to `(6, 0)` measures at least ten. -/
theorem State.rectifies_arch :
    (State.initial .totalLength 0 1 : State ℝ).goal = .totalLength ∧
    0 < (State.initial .totalLength 0 1 : State ℝ).tolerance ∧
    ∃ pieces length, (State.initial .totalLength 0 1 : State ℝ).Rectifies
      (⟨⟨0, 0⟩, ⟨3, 8⟩, ⟨6, 0⟩⟩ : QuadraticCurve ℝ) pieces length ∧ 10 ≤ length := by
  have htolerance : 0 < (State.initial .totalLength 0 1 : State ℝ).tolerance := zero_lt_one
  obtain ⟨hquadratic, -⟩ := State.rectifies_quadratic_and_cubic _ rfl htolerance
  obtain ⟨pieces, length, hrectifies⟩ := hquadratic ⟨⟨0, 0⟩, ⟨3, 8⟩, ⟨6, 0⟩⟩
  refine ⟨rfl, htolerance, pieces, length, hrectifies, ?_⟩
  have hinscribed := hrectifies.inscribed_le [0, 1 / 2, 1] (by norm_num) (by norm_num)
  have hpoints : [0, 1 / 2, 1].map
      (Parametric.pointAt (⟨⟨0, 0⟩, ⟨3, 8⟩, ⟨6, 0⟩⟩ : QuadraticCurve ℝ)) =
      [⟨0, 0⟩, ⟨3, 4⟩, ⟨6, 0⟩] := by
    norm_num [Parametric.pointAt, QuadraticCurve.pointAt]
  have hup : (Point.mk 0 0 : Point ℝ).distance ⟨3, 4⟩ = 5 :=
    Point.distance_eq_of_sq (by norm_num) (by norm_num)
  have hdown : (Point.mk 3 4 : Point ℝ).distance ⟨6, 0⟩ = 5 :=
    Point.distance_eq_of_sq (by norm_num) (by norm_num)
  rw [hpoints, polyline, polyline, polyline, hup, hdown] at hinscribed
  · linarith
  · simp

end ArcLength
