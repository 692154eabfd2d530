import ArcLength.Path.Element
import ArcLength.Point.Complex

/-!
# Elliptical arcs

An arc runs along an ellipse at constant speed of its angle, from `startAngle` over `sweepAngle`.
`Arc.ofEndpoints` finds the ellipse through two points with given radii, and enlarges the radii if
there is none. `Arc.elements` draws an arc by cubics of at most a quarter turn each.
-/

namespace ArcLength

/-- A stretch of an ellipse. The radii are the parts of `radius`, and the angles are in degrees. -/
structure Arc (α : Type) where
  start : Point α
  finish : Point α
  center : Point α
  radius : Point α
  rotation : α
  startAngle : α
  sweepAngle : α
deriving DecidableEq, Repr

namespace Arc

variable {α : Type} [Scalar α]

/-- Angle in degrees of a point of the unit circle, from a value with the sign of its sine and from
its cosine. Where the first is zero or no number, the angle is zero or half a turn, by the sign of
the last argument. -/
def signedAngle (sine cosine cosineSign : α) : α :=
  if 0 < sine then Scalar.degrees (Scalar.acos cosine)
  else if sine < 0 then -Scalar.degrees (Scalar.acos cosine)
  else if 0 < cosineSign then 0
  else ((180 : Nat) : α)

/-- A quotient so small that it counts as zero. -/
def isNegligible (a : α) : Bool := decide (Scalar.abs a ≤ Scalar.ofDecimal ⟨false, 1, -8⟩)

/-- A complex number with both parts moved into the interval from -1 to 1. -/
def clampParts (u : Point α) : Point α :=
  .ofParts (Scalar.clamp (-1) 1 u.x) (Scalar.clamp (-1) 1 u.y)

/-- The radii, enlarged by a common factor if the half chord, seen from the axes of the ellipse,
lies outside of it. -/
def enlargedRadius (radius halfChord : Point α) : Point α :=
  let check := halfChord.x * halfChord.x / (radius.x * radius.x) +
    halfChord.y * halfChord.y / (radius.y * radius.y)
  if 1 < check then ⟨radius.x * Scalar.sqrt check, radius.y * Scalar.sqrt check⟩ else radius

/-- The center seen from the middle of the chord along the axes of the ellipse. -/
def centerOffset (radius halfChord : Point α) (sameFlags : Bool) : Point α :=
  let rx := radius.x
  let ry := radius.y
  let rxSquared := rx * rx
  let rySquared := ry * ry
  let across := rxSquared * (halfChord.y * halfChord.y) + rySquared * (halfChord.x * halfChord.x)
  let radicand := (rxSquared * rySquared - across) / across
  let radical := if isNegligible radicand then 0 else Scalar.sqrt radicand
  let turned := Point.unit * .ofReal ry * .ofReal halfChord.x / .ofReal rx
  (.ofReal (rx * halfChord.y / ry) - turned) * .ofReal (if sameFlags then -radical else radical)

/-- A point along the axes of the ellipse, carried to the unit circle. -/
def onUnitCircle (radius offset : Point α) (x y : α) : Point α :=
  clampParts (.ofReal ((x - offset.x) / radius.x) +
    Point.unit * .ofReal (y - offset.y) / .ofReal radius.y)

/-- The arc between two points on an ellipse with given radii and rotation in degrees. Of the four
arcs the flags choose the one with more or less than half a turn and the one with rising or falling
angle. -/
def ofEndpoints (start : Point α) (radius : Point α) (rotation : α) (large sweep : Bool)
    (finish : Point α) : Arc α :=
  let two : α := ((2 : Nat) : α)
  let fullTurn : α := ((360 : Nat) : α)
  let turn : Point α := .direction (Scalar.radians rotation)
  let halfChord := .ofReal 1 / turn * (start - finish) / .ofReal two
  let radius := enlargedRadius radius halfChord
  let offset := centerOffset radius halfChord (large == sweep)
  let u := onUnitCircle radius offset halfChord.x halfChord.y
  let v := onUnitCircle radius offset (-halfChord.x) (-halfChord.y)
  let dot := u.x * v.x + u.y * v.y
  let det := u.x * v.y - u.y * v.x
  let between := signedAngle det (Scalar.clamp (-1) 1 dot) dot
  { start
    finish
    center := turn * offset + (start + finish) / .ofReal two
    radius := .ofParts radius.x radius.y
    rotation
    startAngle := signedAngle u.y u.x u.x
    sweepAngle :=
      if !sweep && decide (0 ≤ between) then between - fullTurn
      else if large && decide (between ≤ 0) then between + fullTurn
      else between }

/-- The angle on the ellipse at a parameter, in degrees. -/
def angleAt (a : Arc α) (t : α) : α := a.startAngle + t * a.sweepAngle

def point (a : Arc α) (t : α) : Point α :=
  let angle := a.angleAt t * Scalar.pi / ((180 : Nat) : α)
  let turn : Point α := .direction (Scalar.radians a.rotation)
  let cos := Scalar.cos angle
  let sin := Scalar.sin angle
  .ofParts (a.radius.x * turn.x * cos - a.radius.y * turn.y * sin + a.center.x)
    (a.radius.x * turn.y * cos + a.radius.y * turn.x * sin + a.center.y)

def derivative (a : Arc α) (t : α) : Point α :=
  let angle := Scalar.radians (a.angleAt t)
  let turn : Point α := .direction (Scalar.radians a.rotation)
  let cos := Scalar.cos angle
  let sin := Scalar.sin angle
  let rate := a.sweepAngle * Scalar.pi / ((180 : Nat) : α)
  .ofReal rate * .ofParts (-a.radius.x * turn.x * sin - a.radius.y * turn.y * cos)
    (-a.radius.x * turn.y * sin + a.radius.y * turn.x * cos)

/-- Number of cubics that draw the arc, each over at most a quarter turn. -/
def cubicCount (a : Arc α) : Nat :=
  Nat.max 1 (Scalar.ceil (Scalar.abs a.sweepAngle / ((90 : Nat) : α)))

def stepSize (a : Arc α) : α := 1 / (a.cubicCount : α)

/-- How far a handle reaches along the derivative: `4 / 3 · tan (span / 4)` radii for the angle
`span` of one cubic. -/
def handle (a : Arc α) : α :=
  let span := Scalar.radians (Scalar.abs a.sweepAngle) * a.stepSize
  ((4 : Nat) : α) / ((3 : Nat) : α) * Scalar.tan (span / ((4 : Nat) : α)) / span * a.stepSize

/-- The cubic with a given index. The last one ends exactly where the arc does. -/
def cubic (a : Arc α) (index : Nat) : Element α :=
  let t₀ := (index : α) * a.stepSize
  let t₁ := ((index + 1 : Nat) : α) * a.stepSize
  let finish := if index + 1 == a.cubicCount then a.finish else a.point t₁
  .cubicTo (a.point t₀ + a.derivative t₀ * .ofReal a.handle)
    (finish - a.derivative t₁ * .ofReal a.handle) finish

/-- The elements that draw the arc from its start; a line if it sweeps no angle. -/
def elements (a : Arc α) : List (Element α) :=
  if a.sweepAngle == 0 then [.lineTo a.finish]
  else (List.range a.cubicCount).map a.cubic

end Arc

end ArcLength
