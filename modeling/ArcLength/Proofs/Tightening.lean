import Mathlib
import ArcLength.Proofs.Answer
import ArcLength.Proofs.Rectification
import ArcLength.Proofs.Straight

/-!
# Tightening the tolerance

What is flat for a tolerance is flat for every larger one. So the pieces for a smaller tolerance
refine those for a larger one, and the polygons of the parts of a piece are together no longer than
its own. Element by element this carries over to paths, and a path without curves measures the same
for all tolerances.
-/

namespace ArcLength

open Filter

namespace Curve

variable {κ : Type} [Curve κ ℝ] {tolerance tolerance' : ℝ}

theorem not_flat_of_le (hle : tolerance ≤ tolerance') {c : κ}
    (hsplit : isFlat tolerance' c = false) : isFlat tolerance c = false := by
  rw [Bool.eq_false_iff, Ne, isFlat_iff] at hsplit ⊢
  intro hflat
  exact hsplit (hflat.trans hle)

/-- The pieces for a smaller tolerance refine those for a larger one, and count for no more. -/
theorem walked_le_of_tolerance_le [Parametric κ] (hle : tolerance ≤ tolerance')
    {depth depth' : ℕ} {c : κ} {ps ps' : List κ}
    (h : flatPieces tolerance depth c = some ps) (h' : flatPieces tolerance' depth' c = some ps') :
    walked (ps.map Leg.ofPiece) ≤ walked (ps'.map Leg.ofPiece) := by
  -- the induction is on the coarser pieces; the finer ones follow each split
  refine flatPieces_induction (P := fun c ps' => ∀ depth ps,
    flatPieces tolerance depth c = some ps →
      walked (ps.map Leg.ofPiece) ≤ walked (ps'.map Leg.ofPiece)) ?_ ?_ h' depth ps h
  · intro c _ depth ps hfine
    simpa [Leg.ofPiece] using walked_le_polygonLength hfine
  · intro c first' second' hfirst hsecond hsplit depth ps hfine
    have hsplit' := not_flat_of_le hle hsplit
    cases depth with
    | zero => simp [flatPieces, hsplit'] at hfine
    | succ depth =>
        obtain ⟨first, second, hfine₁, hfine₂, rfl⟩ :=
          (flatPieces_succ_of_not_flat hsplit').mp hfine
        simp only [List.map_append, walked_append]
        exact add_le_add (hfirst depth first hfine₁) (hsecond depth second hfine₂)

theorem walked_pieces_le [Parametric κ] (htolerance : 0 < tolerance)
    (hle : tolerance ≤ tolerance') (c : κ) :
    walked ((pieces tolerance c).map Leg.ofPiece) ≤
      walked ((pieces tolerance' c).map Leg.ofPiece) := by
  obtain ⟨depth, hfine⟩ := exists_flatPieces_eq_pieces htolerance c
  obtain ⟨depth', hcoarse⟩ := exists_flatPieces_eq_pieces (htolerance.trans_le hle) c
  exact walked_le_of_tolerance_le hle hfine hcoarse

end Curve

namespace Pen

variable {tolerance tolerance' : ℝ}

theorem walked_legs_le (htolerance : 0 < tolerance) (hle : tolerance ≤ tolerance') (pen : Pen)
    (e : Element ℝ) : walked (pen.legs tolerance e) ≤ walked (pen.legs tolerance' e) := by
  cases e with
  | moveTo p => exact le_rfl
  | lineTo p => exact le_rfl
  | quadTo c p => exact Curve.walked_pieces_le htolerance hle _
  | cubicTo c₁ c₂ p => exact Curve.walked_pieces_le htolerance hle _
  | close => exact le_rfl

theorem walked_itinerary_le (htolerance : 0 < tolerance) (hle : tolerance ≤ tolerance') (pen : Pen)
    (es : List (Element ℝ)) :
    walked (pen.itinerary tolerance es) ≤ walked (pen.itinerary tolerance' es) := by
  induction es generalizing pen with
  | nil => exact le_rfl
  | cons e rest ih =>
      rw [itinerary, itinerary, walked_append, walked_append]
      exact add_le_add (walked_legs_le htolerance hle pen e) (ih (pen.after e))

end Pen

namespace Path

theorem exists_length_le (p : Path ℝ) {tolerance tolerance' : ℝ} (htolerance : 0 < tolerance)
    (hle : tolerance ≤ tolerance') :
    ∃ length length' : ℝ, length ≤ length' ∧ ∀ᶠ budget in atTop,
      p.length budget tolerance = some length ∧ p.length budget tolerance' = some length' := by
  refine ⟨_, _, Pen.walked_itinerary_le htolerance hle ⟨.origin, .origin⟩ p.elements, ?_⟩
  filter_upwards [eventually_affords htolerance p,
    eventually_affords (htolerance.trans_le hle) p] with budget hfine hcoarse
  exact ⟨length_eq hfine, length_eq hcoarse⟩

/-- **Tightening the tolerance never lengthens a path.** For tolerances above zero the length is
found, and for the smaller one it is at most what it is for the larger one. A path without curves
has the same length, points, angles, indices and samples for all tolerances. -/
theorem length_le_of_tighter (p : Path ℝ) :
    (∀ tolerance tolerance' : ℝ, 0 < tolerance → tolerance ≤ tolerance' →
      ∃ length length' : ℝ, length ≤ length' ∧ ∀ᶠ budget in atTop,
        p.length budget tolerance = some length ∧ p.length budget tolerance' = some length') ∧
    ((∀ e ∈ p.elements, e.isCurve = false) →
      (Unaffected fun budget tolerance => p.length budget tolerance) ∧
      (∀ x, Unaffected fun budget tolerance => p.pointAtLength budget x tolerance) ∧
      (∀ x, Unaffected fun budget tolerance => p.normalAngleAtLength budget x tolerance) ∧
      (∀ x, Unaffected fun budget tolerance => p.segmentIndexAtLength budget x tolerance) ∧
      ∀ count, Unaffected fun budget tolerance => p.samplePoints budget count tolerance) := by
  refine ⟨fun tolerance tolerance' htolerance hle => p.exists_length_le htolerance hle, ?_⟩
  intro hstraight
  exact ⟨unaffected_length hstraight, unaffected_pointAtLength hstraight,
    unaffected_normalAngleAtLength hstraight, unaffected_segmentIndexAtLength hstraight,
    unaffected_samplePoints hstraight⟩

/-- A closed arch at two tolerances, and a stroke there and back at all of them. -/
theorem length_le_of_tighter_arch :
    (0 : ℝ) < 1 ∧ (1 : ℝ) ≤ 2 ∧
    (∃ length length' : ℝ, length ≤ length' ∧ ∀ᶠ budget in atTop,
      Path.length budget ⟨[.moveTo ⟨0, 0⟩, .quadTo ⟨3, 8⟩ ⟨6, 0⟩, .close]⟩ 1 = some length ∧
      Path.length budget ⟨[.moveTo ⟨0, 0⟩, .quadTo ⟨3, 8⟩ ⟨6, 0⟩, .close]⟩ 2 = some length') ∧
    (∀ e ∈ [.moveTo ⟨0, 0⟩, .lineTo ⟨3, 4⟩, .close], Element.isCurve (α := ℝ) e = false) ∧
    Unaffected fun budget (tolerance : ℝ) =>
      Path.samplePoints budget ⟨[.moveTo ⟨0, 0⟩, .lineTo ⟨3, 4⟩, .close]⟩ 5 tolerance := by
  have hstraight : ∀ e ∈ [.moveTo ⟨0, 0⟩, .lineTo ⟨3, 4⟩, .close],
      Element.isCurve (α := ℝ) e = false := by
    simp [Element.isCurve]
  obtain ⟨hlength, -⟩ := length_le_of_tighter ⟨[.moveTo ⟨0, 0⟩, .quadTo ⟨3, 8⟩ ⟨6, 0⟩, .close]⟩
  obtain ⟨-, hsame⟩ := length_le_of_tighter ⟨[.moveTo ⟨0, 0⟩, .lineTo ⟨3, 4⟩, .close]⟩
  obtain ⟨-, -, -, -, hsamples⟩ := hsame hstraight
  exact ⟨zero_lt_one, one_le_two, hlength 1 2 zero_lt_one one_le_two, hstraight, hsamples 5⟩

end Path

end ArcLength
