import ArcLength.Curve

/-!
# Adaptive subdivision

A curve is halved until the control polygon of each piece is within a tolerance of its chord. The
flat pieces are met from start to end, and their polygons are summed until a given sum is far
enough. Halving need not end for every number system, so each definition takes a budget of steps
and says by `none` that it ran out.
-/

namespace ArcLength

/-- A budget that no run on a machine spends. -/
def ampleBudget : Nat := Nat.pow 2 62

/-- What a measured curve comes to: the sum of the polygons met, and the last flat piece met. -/
structure Measured (κ α : Type) where
  length : α
  last : κ

namespace Curve

variable {κ α : Type} [Curve κ α] [Scalar α]

/-- A piece is flat unless its polygon exceeds its chord by more than the tolerance. -/
def isFlat (tolerance : α) (c : κ) : Bool :=
  !decide (tolerance < polygonLength c - chord c)

/-- Visits `piece` and then `later`, with `length` summed so far. -/
def visit (tolerance : α) (enough : α → Bool) : Nat → κ → List κ → α → Option (Measured κ α)
  | 0, _, _, _ => none
  | budget + 1, piece, later, length =>
    if isFlat tolerance piece then
      let length := length + polygonLength piece
      if enough length then some ⟨length, piece⟩
      else
        match later with
        | [] => some ⟨length, piece⟩
        | next :: later => visit tolerance enough budget next later length
    else
      let halves := split piece
      visit tolerance enough budget halves.1 (halves.2 :: later) length

/-- Measures a curve up to the first flat piece with which the sum is enough. -/
def measure (budget : Nat) (tolerance : α) (enough : α → Bool) (c : κ) : Option (Measured κ α) :=
  visit tolerance enough budget c [] 0

/-- The flat pieces from start to end, by plain recursion into halves; `none` if some piece is not
flat within `depth` halvings. -/
def flatPieces (tolerance : α) : Nat → κ → Option (List κ)
  | 0, c => if isFlat tolerance c then some [c] else none
  | depth + 1, c =>
    if isFlat tolerance c then some [c]
    else do
      let first ← flatPieces tolerance depth (split c).1
      let second ← flatPieces tolerance depth (split c).2
      return first ++ second

end Curve

end ArcLength
