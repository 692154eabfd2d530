import ArcLength.Point

/-!
# Bézier curves

Quadratic and cubic pieces with the length of their control polygon and the split at the middle
parameter. `Curve` is what measuring needs of a piece; nothing else about its shape is used.
-/

namespace ArcLength

/-- A shape with two ends, a polygon from one to the other, and two halves. -/
class Curve (κ : Type) (α : outParam Type) where
  start : κ → Point α
  finish : κ → Point α
  polygonLength : κ → α
  split : κ → κ × κ

namespace Curve

variable {κ α : Type} [Curve κ α] [Scalar α]

def chord (c : κ) : α := (start c).distance (finish c)

/-- A side to turn to after a split. -/
inductive Side where
  | left
  | right
deriving DecidableEq, Repr

def half (c : κ) : Side → κ
  | .left => (split c).1
  | .right => (split c).2

/-- The piece that a word of sides leads to. -/
def descend (c : κ) : List Side → κ
  | [] => c
  | s :: w => descend (half c s) w

end Curve

@[ext]
structure QuadraticCurve (α : Type) where
  start : Point α
  control : Point α
  finish : Point α
deriving DecidableEq, Repr

@[ext]
structure CubicCurve (α : Type) where
  start : Point α
  control1 : Point α
  control2 : Point α
  finish : Point α
deriving DecidableEq, Repr

variable {α : Type} [Scalar α]

namespace QuadraticCurve

def polygonLength (c : QuadraticCurve α) : α :=
  c.start.distance c.control + c.control.distance c.finish

/-- De Casteljau's construction at the middle parameter. -/
def split (c : QuadraticCurve α) : QuadraticCurve α × QuadraticCurve α :=
  let leftControl := c.start.midpoint c.control
  let rightControl := c.control.midpoint c.finish
  let junction := leftControl.midpoint rightControl
  (⟨c.start, leftControl, junction⟩, ⟨junction, rightControl, c.finish⟩)

instance : Curve (QuadraticCurve α) α where
  start := start
  finish := finish
  polygonLength := polygonLength
  split := split

end QuadraticCurve

namespace CubicCurve

def polygonLength (c : CubicCurve α) : α :=
  c.start.distance c.control1 + c.control1.distance c.control2 + c.control2.distance c.finish

def split (c : CubicCurve α) : CubicCurve α × CubicCurve α :=
  let betweenControls := c.control1.midpoint c.control2
  let leftControl1 := c.start.midpoint c.control1
  let leftControl2 := leftControl1.midpoint betweenControls
  let rightControl2 := c.control2.midpoint c.finish
  let rightControl1 := betweenControls.midpoint rightControl2
  let junction := leftControl2.midpoint rightControl1
  (⟨c.start, leftControl1, leftControl2, junction⟩,
    ⟨junction, rightControl1, rightControl2, c.finish⟩)

instance : Curve (CubicCurve α) α where
  start := start
  finish := finish
  polygonLength := polygonLength
  split := split

end CubicCurve

end ArcLength
