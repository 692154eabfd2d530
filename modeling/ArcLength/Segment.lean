import ArcLength.Arc

/-!
# Segments

A segment is a drawn stroke that knows where it starts, unlike an element, which starts at the pen.
-/

namespace ArcLength

inductive Segment (α : Type) where
  | line (start finish : Point α)
  | quadratic (start control finish : Point α)
  | cubic (start control1 control2 finish : Point α)
  | arc (arc : Arc α)
deriving DecidableEq, Repr

namespace Segment

variable {α : Type}

def start : Segment α → Point α
  | line p _ => p
  | quadratic p _ _ => p
  | cubic p _ _ _ => p
  | arc a => a.start

def finish : Segment α → Point α
  | line _ p => p
  | quadratic _ _ p => p
  | cubic _ _ _ p => p
  | arc a => a.finish

/-- The elements that draw the segment for a pen at its start. -/
def elements [Scalar α] : Segment α → List (Element α)
  | line _ p => [.lineTo p]
  | quadratic _ c p => [.quadTo c p]
  | cubic _ c₁ c₂ p => [.cubicTo c₁ c₂ p]
  | arc a => a.elements

end Segment

end ArcLength
