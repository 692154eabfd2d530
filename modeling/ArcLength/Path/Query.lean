import ArcLength.Path.Walk

/-!
# Queries

Each query walks the path once from a fresh state. Lengths below zero are asked for as zero. A query
leaves open how a path is walked, so that walks which are observed are made by the same query. The
queries of a path walk it within a budget.
-/

namespace ArcLength

variable {α : Type} [Scalar α]

/-- The values that divide the interval from zero to `total` evenly, both ends among them. -/
def Path.evenly (total : α) : Nat → List α
  | 0 => []
  | 1 => [0 * total + 0]
  | gaps + 1 =>
    let step := total / (gaps : α)
    let inner := fun (i : Nat) =>
      (if step == 0 then (i : α) / (gaps : α) * total else (i : α) * step) + 0
    (List.range gaps).map inner ++ [total]

namespace Query

variable {m : Type → Type} [Monad m] (walk : Path α → State α → m (State α)) (p : Path α)

def length (tolerance : α) : m α := do
  let s ← walk p (.initial .totalLength 0 tolerance)
  return s.totalLength

/-- The walk that looks for the place at a length. -/
def seek (goal : Goal) (length tolerance : α) : m (State α) :=
  walk p (.initial goal (Scalar.max 0 length) tolerance)

/-- The point at a length, and whether the path reaches so far. -/
def pointAtLength (length tolerance : α) : m (Point α × Bool) := do
  let s ← seek walk p .pointAtLength length tolerance
  return (s.current, s.success)

/-- The direction of the path at a length, in degrees, and whether the path reaches so far. -/
def normalAngleAtLength (length tolerance : α) : m (α × Bool) := do
  let s ← seek walk p .normalAngleAtLength length tolerance
  return (s.normalAngle, s.success)

/-- Index of the element that holds the point at a length, the last one past the end. -/
def segmentIndexAtLength (length tolerance : α) : m Int := do
  let s ← seek walk p .pointAtLength length tolerance
  return s.segmentIndex

/-- Points at evenly spaced lengths from the start to the end. -/
def samplePoints (count : Int) (tolerance : α) : m (List (Point α)) :=
  if count ≤ 0 || p.isEmpty then return []
  else do
    let total ← length walk p tolerance
    (Path.evenly total count.toNat).mapM fun target => do
      let (point, _) ← pointAtLength walk p target tolerance
      return point

end Query

namespace Path

def length (budget : Nat) (p : Path α) (tolerance : α) : Option α :=
  Query.length (walk budget) p tolerance

def seek (budget : Nat) (p : Path α) (goal : Goal) (length tolerance : α) : Option (State α) :=
  Query.seek (walk budget) p goal length tolerance

def pointAtLength (budget : Nat) (p : Path α) (length tolerance : α) : Option (Point α × Bool) :=
  Query.pointAtLength (walk budget) p length tolerance

def normalAngleAtLength (budget : Nat) (p : Path α) (length tolerance : α) : Option (α × Bool) :=
  Query.normalAngleAtLength (walk budget) p length tolerance

def segmentIndexAtLength (budget : Nat) (p : Path α) (length tolerance : α) : Option Int :=
  Query.segmentIndexAtLength (walk budget) p length tolerance

def samplePoints (budget : Nat) (p : Path α) (count : Int) (tolerance : α) :
    Option (List (Point α)) :=
  Query.samplePoints (walk budget) p count tolerance

section Readings

variable (budget : Nat) (p : Path α) (x tolerance : α)

theorem seek_eq (goal : Goal) : p.seek budget goal x tolerance =
    p.walk budget (.initial goal (Scalar.max 0 x) tolerance) := rfl

theorem length_eq_map : p.length budget tolerance =
    (p.walk budget (.initial .totalLength 0 tolerance)).map State.totalLength :=
  Option.map_eq_bind.symm

theorem pointAtLength_eq_map : p.pointAtLength budget x tolerance =
    (p.seek budget .pointAtLength x tolerance).map fun s => (s.current, s.success) :=
  Option.map_eq_bind.symm

theorem normalAngleAtLength_eq_map : p.normalAngleAtLength budget x tolerance =
    (p.seek budget .normalAngleAtLength x tolerance).map fun s => (s.normalAngle, s.success) :=
  Option.map_eq_bind.symm

theorem segmentIndexAtLength_eq_map : p.segmentIndexAtLength budget x tolerance =
    (p.seek budget .pointAtLength x tolerance).map State.segmentIndex :=
  Option.map_eq_bind.symm

theorem samplePoints_eq (count : Int) : p.samplePoints budget count tolerance =
    if count ≤ 0 || p.isEmpty then some []
    else (p.length budget tolerance).bind fun total =>
      (evenly total count.toNat).mapM fun target =>
        (p.pointAtLength budget target tolerance).bind fun answer => some answer.1 := rfl

end Readings

end Path

end ArcLength
