import ArcLength.Path
import ArcLength.Segment

/-!
# Paths from segments

Segments become a path by moves wherever a segment does not start at the end of the one before it.
A run between moves that ends where it started is closed; the pen is there already, so the close
adds no length.
-/

namespace ArcLength.Path

variable {α : Type} [Scalar α]

/-- Closes a run that has come back to its start. -/
def closing (runStart pen : Point α) : List (Element α) :=
  if pen == runStart then [.close] else []

/-- The elements that draw segments for a pen that stands at `pen` in a run from `runStart`. -/
def strokes (runStart pen : Point α) : List (Segment α) → List (Element α)
  | [] => closing runStart pen
  | s :: rest =>
    if s.start == pen then s.elements ++ strokes runStart s.finish rest
    else closing runStart pen ++ .moveTo s.start :: s.elements ++ strokes s.start s.finish rest

def ofSegments : List (Segment α) → Path α
  | [] => empty
  | s :: rest => ⟨.moveTo s.start :: s.elements ++ strokes s.start s.finish rest⟩

end ArcLength.Path
