import ArcLength.Path.OfSegments
import ArcLength.PathData.Cursor

/-!
# Reading path data

`Path.ofData` reads path data in four steps: tokens, instructions, segments, elements. Bare moves
leave no segment, so data with nothing else gives the empty path.
-/

namespace ArcLength

namespace PathData

/-- Why path data gives no path. -/
inductive Failure where
  | rejected (r : Rejection)
  /-- A subpath was closed before any move, so a segment has no end. -/
  | unanchoredClose
deriving DecidableEq, Repr

def Failure.message (d : String) : Failure → String
  | .rejected r => r.message d
  | .unanchoredClose => "'NoneType' object has no attribute 'real'"

variable {α : Type} [Scalar α]

/-- The segments that tokens draw. A fault of an instruction comes before the shortage that ends
the instructions. -/
def segments (tokens : List Token) : Except Failure (List (Segment α)) :=
  let (instructions, shortage?) := Instruction.ofTokens tokens
  match Cursor.run .initial instructions with
  | .error r => .error (.rejected r)
  | .ok (segments, cursor) =>
    match shortage? with
    | some s => .error (.rejected (.shortage s))
    | none => if cursor.unanchored then .error .unanchoredClose else .ok segments

end PathData

def Path.ofData {α : Type} [Scalar α] (d : String) : Except PathData.Failure (Path α) := do
  return .ofSegments (← PathData.segments (PathData.Token.ofText d))

end ArcLength
