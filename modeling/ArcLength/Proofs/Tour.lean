import ArcLength.Proofs.Pieces
import ArcLength.Proofs.Steps

/-!
# The pieces that measuring meets

`Curve.met` follows a visit and keeps the flat pieces that it counts. A visit that is not cut meets
all that its stack stands for. So the pieces lead from the start of a curve to its end, whatever
rule finds the point between two others when a curve is split.
-/

namespace ArcLength

section Met

variable {κ α : Type} [Curve κ α] [Scalar α]

namespace Curve

/-- The flat pieces that a visit meets, in the order in which it counts them. -/
def met (tolerance : α) (enough : α → Bool) : Nat → κ → List κ → α → List κ
  | 0, _, _, _ => []
  | budget + 1, piece, later, length =>
    if isFlat tolerance piece then
      let length := length + polygonLength piece
      if enough length then [piece]
      else
        match later with
        | [] => [piece]
        | next :: later => piece :: met tolerance enough budget next later length
    else
      let halves := split piece
      met tolerance enough budget halves.1 (halves.2 :: later) length

variable {tolerance : α} {enough : α → Bool} {piece next : κ} {later : List κ} {length : α}

theorem met_of_enough (hflat : isFlat tolerance piece = true)
    (henough : enough (length + polygonLength piece) = true) (budget : Nat) :
    met tolerance enough (budget + 1) piece later length = [piece] := by
  simp [met, hflat, henough]

theorem met_of_last (hflat : isFlat tolerance piece = true) (budget : Nat) :
    met tolerance enough (budget + 1) piece [] length = [piece] := by
  simp [met, hflat]

theorem met_of_next (hflat : isFlat tolerance piece = true)
    (hopen : enough (length + polygonLength piece) = false) (budget : Nat) :
    met tolerance enough (budget + 1) piece (next :: later) length =
      piece :: met tolerance enough budget next later (length + polygonLength piece) := by
  simp [met, hflat, hopen]

theorem met_of_not_flat (hflat : isFlat tolerance piece = false) (budget : Nat) :
    met tolerance enough (budget + 1) piece later length =
      met tolerance enough budget (split piece).1 ((split piece).2 :: later) length := by
  simp [met, hflat]

theorem total_met {budget : Nat} {m : Measured κ α}
    (h : visit tolerance enough budget piece later length = some m) :
    total length (met tolerance enough budget piece later length) = m.length ∧
      (met tolerance enough budget piece later length).getLast? = some m.last := by
  induction budget generalizing piece later length with
  | zero => simp [visit] at h
  | succ budget ih =>
      cases hflat : isFlat tolerance piece with
      | false =>
          rw [visit_of_not_flat hflat] at h
          rw [met_of_not_flat hflat]
          exact ih h
      | true =>
          cases hcut : enough (length + polygonLength piece) with
          | true =>
              rw [visit_of_enough hflat hcut] at h
              obtain rfl := Option.some.inj h
              rw [met_of_enough hflat hcut]
              exact ⟨rfl, rfl⟩
          | false =>
              cases later with
              | nil =>
                  rw [visit_of_last hflat hcut] at h
                  obtain rfl := Option.some.inj h
                  rw [met_of_last hflat]
                  exact ⟨rfl, rfl⟩
              | cons next later =>
                  rw [visit_of_next hflat hcut] at h
                  rw [met_of_next hflat hcut]
                  obtain ⟨htotal, hlast⟩ := ih h
                  refine ⟨htotal, ?_⟩
                  rw [List.getLast?_cons, hlast]
                  rfl

theorem unfolds_met {budget : Nat} {m : Measured κ α}
    (h : visit tolerance enough budget piece later length = some m)
    (huncut : enough m.length = false) :
    Unfolds tolerance (piece :: later) (met tolerance enough budget piece later length) := by
  -- the sum at the end passes nothing, so no cut is what ended the visit
  induction budget generalizing piece later length with
  | zero => simp [visit] at h
  | succ budget ih =>
      cases hflat : isFlat tolerance piece with
      | false =>
          rw [visit_of_not_flat hflat] at h
          rw [met_of_not_flat hflat]
          exact Unfolds.halves hflat (ih h)
      | true =>
          cases hcut : enough (length + polygonLength piece) with
          | true =>
              rw [visit_of_enough hflat hcut] at h
              obtain rfl := Option.some.inj h
              exact absurd hcut (by simp [huncut])
          | false =>
              cases later with
              | nil =>
                  rw [met_of_last hflat]
                  exact Unfolds.flat hflat Unfolds.nil
              | cons next later =>
                  rw [visit_of_next hflat hcut] at h
                  rw [met_of_next hflat hcut]
                  exact Unfolds.flat hflat (ih h)

end Curve

namespace State

def met (budget : Nat) (s : State α) (c : κ) : List κ :=
  Curve.met s.tolerance s.passes budget c [] 0

variable {budget : Nat} {s t : State α} {c : κ} {length : α}

theorem exists_measure_of_curveLength (h : s.curveLength budget c = some (length, t)) :
    ∃ m, Curve.measure budget s.tolerance s.passes c = some m ∧ m.length = length := by
  rw [curveLength_eq] at h
  obtain ⟨m, hmeasure, heq⟩ := Option.map_eq_some_iff.mp h
  exact ⟨m, hmeasure, congrArg Prod.fst heq⟩

theorem total_met (h : s.curveLength budget c = some (length, t)) :
    Curve.total 0 (s.met budget c) = length := by
  obtain ⟨m, hmeasure, rfl⟩ := exists_measure_of_curveLength h
  exact (Curve.total_met hmeasure).1

theorem unfolds_met (h : s.curveLength budget c = some (length, t))
    (huncut : s.passes length = false) : Curve.Unfolds s.tolerance [c] (s.met budget c) := by
  obtain ⟨m, hmeasure, rfl⟩ := exists_measure_of_curveLength h
  exact Curve.unfolds_met hmeasure huncut

theorem joins_met [Curve.Lawful κ] (h : s.curveLength budget c = some (length, t))
    (huncut : s.passes length = false) :
    Curve.Joins (Curve.start c) (s.met budget c) (Curve.finish c) :=
  (unfolds_met h huncut).joins ⟨rfl, rfl⟩

end State

end Met

/-- Curves that are split with a rule for the point between two. -/
def QuadraticCurve.With {α : Type} (_ : Point α → Point α → Point α) : Type := QuadraticCurve α

def CubicCurve.With {α : Type} (_ : Point α → Point α → Point α) : Type := CubicCurve α

section With

variable {α : Type} [Scalar α] (between : Point α → Point α → Point α)

/-- De Casteljau's construction with a rule for the point between two. -/
def QuadraticCurve.splitWith (c : QuadraticCurve α) : QuadraticCurve α × QuadraticCurve α :=
  let leftControl := between c.start c.control
  let rightControl := between c.control c.finish
  let junction := between leftControl rightControl
  (⟨c.start, leftControl, junction⟩, ⟨junction, rightControl, c.finish⟩)

def CubicCurve.splitWith (c : CubicCurve α) : CubicCurve α × CubicCurve α :=
  let betweenControls := between c.control1 c.control2
  let leftControl1 := between c.start c.control1
  let leftControl2 := between leftControl1 betweenControls
  let rightControl2 := between c.control2 c.finish
  let rightControl1 := between betweenControls rightControl2
  let junction := between leftControl2 rightControl1
  (⟨c.start, leftControl1, leftControl2, junction⟩,
    ⟨junction, rightControl1, rightControl2, c.finish⟩)

instance : Curve (QuadraticCurve.With between) α where
  start := QuadraticCurve.start
  finish := QuadraticCurve.finish
  polygonLength := QuadraticCurve.polygonLength
  split := QuadraticCurve.splitWith between

instance : Curve (CubicCurve.With between) α where
  start := CubicCurve.start
  finish := CubicCurve.finish
  polygonLength := CubicCurve.polygonLength
  split := CubicCurve.splitWith between

instance : Curve.Lawful (QuadraticCurve.With between) where
  start_left _ := rfl
  finish_left _ := rfl
  finish_right _ := rfl

instance : Curve.Lawful (CubicCurve.With between) where
  start_left _ := rfl
  finish_left _ := rfl
  finish_right _ := rfl

end With

example {α : Type} [Scalar α] (c : QuadraticCurve α) : c.splitWith Point.midpoint = c.split := rfl

example {α : Type} [Scalar α] (c : CubicCurve α) : c.splitWith Point.midpoint = c.split := rfl

end ArcLength
