import Mathlib
import ArcLength.Path.Query
import ArcLength.Proofs.Flatness

/-!
# The itinerary of a path

In the exact plane a path is walked along straight legs: its strokes, and the flat pieces of its
curves. A leg counts for its polygon, which may be longer than the leg itself. Legs that are drawn
without a move in between are connected, so no two points on the way are further apart than the
length counted between them.
-/

namespace ArcLength

open Filter

/-- A straight stretch of a walk, with the length that it counts for. -/
structure Leg where
  start : Point ℝ
  finish : Point ℝ
  length : ℝ
  distance_le : start.distance finish ≤ length

namespace Leg

noncomputable def straight (p q : Point ℝ) : Leg := ⟨p, q, p.distance q, le_rfl⟩

noncomputable def ofPiece {κ : Type} [Curve κ ℝ] [Curve.Planar κ] (c : κ) : Leg :=
  ⟨Curve.start c, Curve.finish c, Curve.polygonLength c, Curve.Planar.chord_le c⟩

/-- What a leg counts for beyond the distance of its ends. -/
noncomputable def slack (l : Leg) : ℝ := l.length - l.start.distance l.finish

theorem slack_nonneg (l : Leg) : 0 ≤ l.slack := sub_nonneg.mpr l.distance_le

theorem length_nonneg (l : Leg) : 0 ≤ l.length :=
  (Point.distance_nonneg _ _).trans l.distance_le

@[simp]
theorem slack_straight (p q : Point ℝ) : (straight p q).slack = 0 := sub_self _

theorem slack_ofPiece_le {κ : Type} [Curve κ ℝ] [Curve.Planar κ] {tolerance : ℝ} {c : κ}
    (hflat : Curve.isFlat tolerance c = true) : (ofPiece c).slack ≤ tolerance :=
  Curve.isFlat_iff.mp hflat

end Leg

noncomputable def walked (legs : List Leg) : ℝ := (legs.map Leg.length).sum

@[simp]
theorem walked_nil : walked [] = 0 := rfl

@[simp]
theorem walked_cons (l : Leg) (legs : List Leg) : walked (l :: legs) = l.length + walked legs := by
  simp [walked]

@[simp]
theorem walked_append (before after : List Leg) :
    walked (before ++ after) = walked before + walked after := by
  simp [walked]

theorem walked_nonneg (legs : List Leg) : 0 ≤ walked legs := by
  induction legs with
  | nil => simp
  | cons l legs ih =>
      rw [walked_cons]
      exact add_nonneg l.length_nonneg ih

theorem total_eq_walked {κ : Type} [Curve κ ℝ] [Curve.Planar κ] (length : ℝ) (ps : List κ) :
    Curve.total length ps = length + walked (ps.map Leg.ofPiece) := by
  induction ps generalizing length with
  | nil => simp [Curve.total]
  | cons c ps ih =>
      have hrest : Curve.total length (c :: ps) =
          Curve.total (length + Curve.polygonLength c) ps := rfl
      rw [hrest, ih, List.map_cons, walked_cons, ← add_assoc]
      rfl

/-- The legs lead from one point to another without a gap. -/
def Connects : Point ℝ → List Leg → Point ℝ → Prop
  | p, [], q => p = q
  | p, l :: legs, q => l.start = p ∧ Connects l.finish legs q

theorem connects_append {p r : Point ℝ} {before after : List Leg} :
    Connects p (before ++ after) r ↔ ∃ q, Connects p before q ∧ Connects q after r := by
  induction before generalizing p with
  | nil => simp [Connects]
  | cons l before ih => simp [Connects, ih, and_assoc]

theorem distance_le_walked {p q : Point ℝ} {legs : List Leg} (h : Connects p legs q) :
    p.distance q ≤ walked legs := by
  induction legs generalizing p with
  | nil => simp [show p = q from h]
  | cons l legs ih =>
      obtain ⟨rfl, hrest⟩ := h
      rw [walked_cons]
      calc l.start.distance q ≤ l.start.distance l.finish + l.finish.distance q :=
            Point.distance_triangle _ _ _
        _ ≤ l.length + walked legs := add_le_add l.distance_le (ih hrest)

theorem finish_of_connects {p q : Point ℝ} {before : List Leg} {leg : Leg}
    (h : Connects p (before ++ [leg]) q) : leg.finish = q := by
  obtain ⟨r, -, -, hleg⟩ := connects_append.mp h
  exact hleg

theorem connects_ofPiece {κ : Type} [Curve κ ℝ] [Curve.Planar κ] {ps : List κ} {p q : Point ℝ}
    (h : Curve.Joins p ps q) : Connects p (ps.map Leg.ofPiece) q := by
  induction ps generalizing p with
  | nil => exact h
  | cons c ps ih => exact ⟨h.1, ih h.2⟩

theorem connects_pieces {κ : Type} [Curve κ ℝ] [Curve.Planar κ] {tolerance : ℝ}
    (htolerance : 0 < tolerance) (c : κ) :
    Connects (Curve.start c) ((Curve.pieces tolerance c).map Leg.ofPiece) (Curve.finish c) := by
  obtain ⟨depth, hdepth⟩ := Curve.exists_flatPieces_eq_pieces htolerance c
  exact connects_ofPiece ((Curve.Unfolds.of_flatPieces hdepth).joins ⟨rfl, rfl⟩)

/-- Where the pen stands, and where its subpath began. -/
@[ext]
structure Pen where
  position : Point ℝ
  subpathStart : Point ℝ

def State.pen (s : State ℝ) : Pen := ⟨s.current, s.subpathStart⟩

namespace Pen

def after (pen : Pen) : Element ℝ → Pen
  | .moveTo p => ⟨p, p⟩
  | .lineTo p => ⟨p, pen.subpathStart⟩
  | .quadTo _ p => ⟨p, pen.subpathStart⟩
  | .cubicTo _ _ p => ⟨p, pen.subpathStart⟩
  | .close => ⟨pen.subpathStart, pen.subpathStart⟩

noncomputable def legs (tolerance : ℝ) (pen : Pen) : Element ℝ → List Leg
  | .moveTo _ => []
  | .lineTo p => [.straight pen.position p]
  | .quadTo c p =>
      (Curve.pieces tolerance (QuadraticCurve.mk pen.position c p)).map .ofPiece
  | .cubicTo c₁ c₂ p =>
      (Curve.pieces tolerance (CubicCurve.mk pen.position c₁ c₂ p)).map .ofPiece
  | .close => [.straight pen.position pen.subpathStart]

noncomputable def itinerary (tolerance : ℝ) : Pen → List (Element ℝ) → List Leg
  | _, [] => []
  | pen, e :: rest => pen.legs tolerance e ++ (pen.after e).itinerary tolerance rest

variable {tolerance : ℝ} {pen : Pen}

@[simp]
theorem legs_of_isMove {e : Element ℝ} (hmove : e.isMove = true) : pen.legs tolerance e = [] := by
  cases e with
  | moveTo p => rfl
  | _ => simp [Element.isMove] at hmove

theorem connects_legs (htolerance : 0 < tolerance) {e : Element ℝ} (hmove : e.isMove = false) :
    Connects pen.position (pen.legs tolerance e) (pen.after e).position := by
  cases e with
  | moveTo p => simp [Element.isMove] at hmove
  | lineTo p => exact ⟨rfl, rfl⟩
  | quadTo c p => exact connects_pieces htolerance (QuadraticCurve.mk pen.position c p)
  | cubicTo c₁ c₂ p => exact connects_pieces htolerance (CubicCurve.mk pen.position c₁ c₂ p)
  | close => exact ⟨rfl, rfl⟩

theorem subpathStart_after {e : Element ℝ} (hmove : e.isMove = false) :
    (pen.after e).subpathStart = pen.subpathStart := by
  cases e with
  | moveTo p => simp [Element.isMove] at hmove
  | _ => rfl

theorem slack_le_of_mem_legs (htolerance : 0 < tolerance) {e : Element ℝ} {l : Leg}
    (hmem : l ∈ pen.legs tolerance e) : l.slack ≤ tolerance := by
  cases e with
  | moveTo p => simp [legs] at hmem
  | lineTo p =>
      rw [List.mem_singleton.mp hmem, Leg.slack_straight]
      exact le_of_lt htolerance
  | quadTo c p =>
      obtain ⟨piece, hpiece, rfl⟩ := List.mem_map.mp hmem
      exact Leg.slack_ofPiece_le (Curve.isFlat_of_mem_pieces htolerance piece hpiece)
  | cubicTo c₁ c₂ p =>
      obtain ⟨piece, hpiece, rfl⟩ := List.mem_map.mp hmem
      exact Leg.slack_ofPiece_le (Curve.isFlat_of_mem_pieces htolerance piece hpiece)
  | close =>
      rw [List.mem_singleton.mp hmem, Leg.slack_straight]
      exact le_of_lt htolerance

theorem connects_itinerary (htolerance : 0 < tolerance) {es : List (Element ℝ)}
    (hdrawn : ∀ e ∈ es, e.isMove = false) :
    ∃ q, Connects pen.position (pen.itinerary tolerance es) q := by
  induction es generalizing pen with
  | nil => exact ⟨_, rfl⟩
  | cons e rest ih =>
      have hrest : ∃ q, Connects (pen.after e).position ((pen.after e).itinerary tolerance rest) q :=
        ih fun f hf => hdrawn f (List.mem_cons_of_mem e hf)
      obtain ⟨q, hq⟩ := hrest
      exact ⟨q, connects_append.mpr
        ⟨_, connects_legs htolerance (hdrawn e List.mem_cons_self), hq⟩⟩

theorem itinerary_append (es fs : List (Element ℝ)) :
    pen.itinerary tolerance (es ++ fs) =
      pen.itinerary tolerance es ++ (es.foldl after pen).itinerary tolerance fs := by
  induction es generalizing pen with
  | nil => rfl
  | cons e rest ih => simp [itinerary, ih]

end Pen

end ArcLength
