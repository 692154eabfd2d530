import ArcLength.Path
import ArcLength.Path.State

/-!
# Walks

`Path.walk` takes a state along a path. It sums the lengths of the elements and answers a query on
the first element, moves aside, whose end is at or past the desired length. The answer is read off
the last flat piece met, from the previous point to the current one.
-/

namespace ArcLength

variable {α : Type} [Scalar α]

namespace State

/-- Whether a query can be answered with the length walked. -/
def reached (s : State α) : Bool :=
  s.isLengthQuery && decide (s.desiredLength ≤ s.totalLength)

/-- Direction of the last piece, in radians. -/
def slope (s : State α) : α :=
  Scalar.atan2 (s.current.y - s.previous.y) (s.current.x - s.previous.x)

/-- How far the answer lies from the end of the last piece: back by the overshoot, and not past the
start of the piece. -/
def pullBack (s : State α) : α :=
  Scalar.max (s.desiredLength - s.totalLength) (-s.previous.distance s.current)

def resolve (s : State α) : State α :=
  match s.goal with
  | .pointAtLength =>
    let offset := s.pullBack
    { s with
      success := true
      current :=
        ⟨s.current.x + offset * Scalar.cos s.slope, s.current.y + offset * Scalar.sin s.slope⟩ }
  | _ => { s with success := true, normalAngle := Scalar.degrees s.slope }

end State

/-- A walk goes on, or its query has been answered. -/
inductive Progress (α : Type) where
  | walking (s : State α)
  | answered (s : State α)

def Progress.state : Progress α → State α
  | .walking s => s
  | .answered s => s

namespace State

/-- Draws the element with the given index and counts its length. -/
def enter (budget : Nat) (s : State α) (index : Nat) (e : Element α) : Option (State α) := do
  let (length, s) ← { s with segmentIndex := index, previous := s.current }.draw budget e
  return { s with totalLength := s.totalLength + length }

def advance (budget : Nat) (s : State α) (index : Nat) (e : Element α) : Option (Progress α) := do
  let s ← s.enter budget index e
  return if !e.isMove && s.reached then .answered s.resolve else .walking s

/-- Walks a list of elements, the first of which has the given index. -/
def advanceAll (budget : Nat) (s : State α) : Nat → List (Element α) → Option (Progress α)
  | _, [] => some (.walking s)
  | index, e :: rest => do
    match ← s.advance budget index e with
    | .answered s => return .answered s
    | .walking s => s.advanceAll budget (index + 1) rest

/-- Answers a query that no element has answered, at the point where the walk ended. -/
def resolveAtRest (s : State α) : State α :=
  { s with previous := s.current }.resolve

end State

/-- Walks a path from a state. A path of bare moves still answers a length that is reached without
walking. -/
def Path.walk (budget : Nat) (p : Path α) (s : State α) : Option (State α) := do
  match ← s.advanceAll budget 0 p.elements with
  | .answered s => return s
  | .walking s => return if !p.isEmpty && s.reached then s.resolveAtRest else s

end ArcLength
