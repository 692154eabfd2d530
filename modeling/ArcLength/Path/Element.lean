import ArcLength.Point

/-!
# Path elements

A path is drawn by a pen. Each element says where the pen goes from where it stands, so a straight
or curved element holds no start.
-/

namespace ArcLength

/-- One step of the pen. -/
inductive Element (α : Type) where
  | moveTo (point : Point α)
  | lineTo (point : Point α)
  | quadTo (control finish : Point α)
  | cubicTo (control1 control2 finish : Point α)
  | close
deriving DecidableEq, Repr

namespace Element

variable {α : Type}

/-- Whether the pen is lifted for the step. -/
def isMove : Element α → Bool
  | moveTo _ => true
  | _ => false

def points : Element α → List (Point α)
  | moveTo p => [p]
  | lineTo p => [p]
  | quadTo c p => [c, p]
  | cubicTo c₁ c₂ p => [c₁, c₂, p]
  | close => []

end Element

end ArcLength
