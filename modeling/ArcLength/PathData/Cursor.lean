import ArcLength.PathData.Rejection
import ArcLength.Segment

/-!
# The cursor

A cursor follows the pen through the instructions of path data and yields a segment for each stroke.
A close before any move has no point to go back to: it leaves the pen without a position, marks
the data as unanchored, and only what needs the position after that is rejected.
-/

namespace ArcLength.PathData

/-- The control point that a smooth curve reflects, by the kind of curve that left it. -/
inductive Handle (α : Type) where
  | none
  | cubic (control : Point α)
  /-- The control point of a curve that began without a position may be missing. -/
  | quadratic (control : Option (Point α))
deriving DecidableEq, Repr

structure Cursor (α : Type) where
  position : Option (Point α)
  subpathStart : Option (Point α)
  handle : Handle α
  /-- Whether a close came before any move. -/
  unanchored : Bool
deriving DecidableEq, Repr

variable {α : Type} [Scalar α]

def Token.read : Token → Except Rejection α
  | .value d => .ok (Scalar.ofDecimal d)
  | .letter c relative => .error (.notANumber (c.spelling relative))

def Token.readPoint (x y : Token) : Except Rejection (Point α) := do
  let x ← x.read
  let y ← y.read
  return .ofParts x y

namespace Cursor

def initial : Cursor α where
  position := some .origin
  subpathStart := none
  handle := .none
  unanchored := false

/-- The position, which is needed for something. -/
def here (c : Cursor α) (need : Need) : Except Rejection (Point α) :=
  match c.position with
  | some p => .ok p
  | none => .error (.noPosition need)

/-- The point that is meant by one given relative to the position or not. -/
def place (c : Cursor α) (relative : Bool) (p : Point α) : Except Rejection (Point α) :=
  if relative then do return p + (← c.here .offset) else return p

def target (c : Cursor α) (relative : Bool) (p : Point α) : Except Rejection (Point α) :=
  if relative then do return (← c.here .move) + p else return p

/-- The cursor at the end of a stroke. -/
def arrive (c : Cursor α) (finish : Point α) (handle : Handle α) : Cursor α :=
  { c with position := some finish, handle }

/-- The cursor at the end of a stroke, and the stroke if it has a start. -/
def stroke (c : Cursor α) (finish : Point α) (handle : Handle α) (shape : Point α → Segment α) :
    Cursor α × Option (Segment α) :=
  (c.arrive finish handle, c.position.map shape)

/-- Goes back to the start of the subpath, with a line if the pen is elsewhere. -/
def close (c : Cursor α) : Cursor α × Option (Segment α) :=
  match c.position, c.subpathStart with
  | some p, some start =>
    (c.arrive start .none, if p == start then none else some (.line p start))
  | none, some start => (c.arrive start .none, none)
  | some _, none => ({ c with position := none, handle := .none, unanchored := true }, none)
  | none, none => ({ c with handle := .none }, none)

/-- Control point that continues a cubic smoothly, else the position. -/
def cubicReflection (c : Cursor α) (p : Point α) : Point α :=
  match c.handle with
  | .cubic control => p + p - control
  | _ => p

/-- Control point that continues a quadratic smoothly, else the position if there is one. -/
def quadraticReflection (c : Cursor α) : Except Rejection (Option (Point α)) :=
  match c.handle, c.position with
  | .quadratic none, _ => .error (.noPosition .reflection)
  | .quadratic (some control), some p => .ok (some (p + p - control))
  | _, position => .ok position

/-- Carries out one instruction. Values are read in the order in which they are written. -/
def step (c : Cursor α) : Instruction → Except Rejection (Cursor α × Option (Segment α))
  | .moveTo relative x y => do
    let p ← c.target relative (← Token.readPoint x y)
    return ({ c with position := some p, subpathStart := some p, handle := .none }, none)
  | .closePath => return c.close
  | .lineTo relative x y => do
    let p ← c.place relative (← Token.readPoint x y)
    return c.stroke p .none fun start => .line start p
  | .horizontalTo relative x => do
    let x ← x.read
    let origin ← c.here .ordinate
    let p : Point α := .ofParts x origin.y
    let p : Point α := if relative then p + .ofReal origin.x else p
    return c.stroke p .none fun start => .line start p
  | .verticalTo relative y => do
    let origin ← c.here .abscissa
    let y ← y.read
    let p : Point α := .ofParts origin.x y
    let p : Point α := if relative then p + .ofReal origin.y * .unit else p
    return c.stroke p .none fun start => .line start p
  | .cubicTo relative x₁ y₁ x₂ y₂ x y => do
    let control1 ← Token.readPoint x₁ y₁
    let control2 ← Token.readPoint x₂ y₂
    let finish ← Token.readPoint x y
    let control1 ← c.place relative control1
    let control2 ← c.place relative control2
    let finish ← c.place relative finish
    return c.stroke finish (.cubic control2) fun start => .cubic start control1 control2 finish
  | .smoothCubicTo relative x₂ y₂ x y => do
    let control2 ← Token.readPoint x₂ y₂
    let finish ← Token.readPoint x y
    let control2 ← c.place relative control2
    let finish ← c.place relative finish
    return c.stroke finish (.cubic control2) fun start =>
      .cubic start (c.cubicReflection start) control2 finish
  | .quadTo relative x₁ y₁ x y => do
    let control ← Token.readPoint x₁ y₁
    let finish ← Token.readPoint x y
    let control ← c.place relative control
    let finish ← c.place relative finish
    return c.stroke finish (.quadratic (some control)) fun start => .quadratic start control finish
  | .smoothQuadTo relative x y => do
    let control? ← c.quadraticReflection
    let finish ← c.place relative (← Token.readPoint x y)
    return (c.arrive finish (.quadratic control?), do
      return .quadratic (← c.position) (← control?) finish)
  | .arcTo relative rx ry rotation large sweep x y => do
    let radius ← Token.readPoint rx ry
    let rotation ← rotation.read
    let large ← large.read
    let sweep ← sweep.read
    let finish ← c.place relative (← Token.readPoint x y)
    if radius.x == 0 || radius.y == 0 then
      return c.stroke finish .none fun start => .line start finish
    else
      if c.position.any (· == finish) then throw .emptyArc
      let start ← c.here .arcStart
      let isSet := fun (flag : α) => !(flag == 0)
      let radius := .ofParts (Scalar.abs radius.x) (Scalar.abs radius.y)
      return c.stroke finish .none fun _ =>
        .arc (.ofEndpoints start radius rotation (isSet large) (isSet sweep) finish)

def run (c : Cursor α) : List Instruction → Except Rejection (List (Segment α) × Cursor α)
  | [] => return ([], c)
  | i :: rest => do
    let (c, segment?) ← c.step i
    let (segments, c) ← c.run rest
    return (segment?.toList ++ segments, c)

end Cursor

end ArcLength.PathData
