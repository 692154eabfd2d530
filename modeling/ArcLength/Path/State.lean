import ArcLength.Curve.Subdivision
import ArcLength.Path.Element

/-!
# Walk states

A walk along a path keeps its pen, the length walked and the goal of the walk in a `State`. Drawing
an element gives its length and the state after it; the caller adds the length to the total, since
only the caller knows whether the element counts.
-/

namespace ArcLength

inductive Goal where
  | totalLength
  | pointAtLength
  | normalAngleAtLength
deriving DecidableEq, Repr

/-- Whether the walk looks for a place on the path. -/
def Goal.isLengthQuery : Goal → Bool
  | .totalLength => false
  | .pointAtLength => true
  | .normalAngleAtLength => true

/-- Flatness to which curves are measured where none is given. -/
def defaultTolerance {α : Type} [Scalar α] : α := Scalar.ofDecimal ⟨false, 1, -5⟩

/-- A walk in progress. -/
@[ext]
structure State (α : Type) where
  goal : Goal
  success : Bool
  totalLength : α
  /-- Length at which a query is answered. -/
  desiredLength : α
  current : Point α
  previous : Point α
  subpathStart : Point α
  lastControl1 : Point α
  lastControl2 : Point α
  /-- Index of the element walked last; a walk that has met none keeps what it was given. -/
  segmentIndex : Int
  /-- Direction of the path at the answer, in degrees. -/
  normalAngle : α
  tolerance : α
deriving DecidableEq, Repr

namespace State

variable {α : Type} [Scalar α]

def initial (goal : Goal) (desiredLength tolerance : α) : State α where
  goal := goal
  success := false
  totalLength := 0
  desiredLength := desiredLength
  current := .origin
  previous := .origin
  subpathStart := .origin
  lastControl1 := .origin
  lastControl2 := .origin
  segmentIndex := 0
  normalAngle := 0
  tolerance := tolerance

def isLengthQuery (s : State α) : Bool := s.goal.isLengthQuery

/-- Whether a curve may end here: the sum of its pieces passes the desired length. -/
def passes (s : State α) (length : α) : Bool :=
  s.isLengthQuery && decide (s.desiredLength < s.totalLength + length)

/-- Measures a curve. A query stops on the piece that passes the desired length and keeps the ends
of the last piece it met. -/
def curveLength {κ : Type} [Curve κ α] (budget : Nat) (s : State α) (c : κ) :
    Option (α × State α) := do
  let measured ← Curve.measure budget s.tolerance s.passes c
  let s :=
    if s.isLengthQuery then
      { s with previous := Curve.start measured.last, current := Curve.finish measured.last }
    else s
  return (measured.length, s)

def moveTo (s : State α) (p : Point α) : α × State α :=
  (0, { s with current := p, subpathStart := p, lastControl1 := p, lastControl2 := p })

def lineTo (s : State α) (p : Point α) : α × State α :=
  (s.current.distance p, { s with current := p, lastControl1 := p, lastControl2 := p })

/-- Draws back to the start of the subpath, where the next subpath starts too. -/
def closeSubpath (s : State α) : α × State α :=
  let p := s.subpathStart
  (s.current.distance p, { s with current := p, lastControl1 := p, lastControl2 := p })

/-- The pen goes to the end of a curve, unless a query has left it on a piece. -/
def landing (s : State α) (finish : Point α) : Point α :=
  if s.isLengthQuery then s.current else finish

def quadTo (budget : Nat) (s : State α) (control finish : Point α) : Option (α × State α) := do
  let (length, s) ← s.curveLength budget (QuadraticCurve.mk s.current control finish)
  return (length, { s with
    lastControl1 := control, lastControl2 := finish, current := s.landing finish })

def cubicTo (budget : Nat) (s : State α) (control1 control2 finish : Point α) :
    Option (α × State α) := do
  let (length, s) ← s.curveLength budget (CubicCurve.mk s.current control1 control2 finish)
  return (length, { s with
    lastControl1 := finish, lastControl2 := control2, current := s.landing finish })

def draw (budget : Nat) (s : State α) : Element α → Option (α × State α)
  | .moveTo p => some (s.moveTo p)
  | .lineTo p => some (s.lineTo p)
  | .quadTo c p => s.quadTo budget c p
  | .cubicTo c₁ c₂ p => s.cubicTo budget c₁ c₂ p
  | .close => some s.closeSubpath

end State

end ArcLength
