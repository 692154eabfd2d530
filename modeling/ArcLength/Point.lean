import ArcLength.Scalar

/-!
# Points of the plane

A point is a pair of scalars. Equality with `==` is numeric in both coordinates, so it inherits what
the scalars say of signed zeros and of values that are no numbers.
-/

namespace ArcLength

@[ext]
structure Point (α : Type) where
  x : α
  y : α
deriving DecidableEq, Repr

namespace Point

variable {α : Type} [Scalar α]

instance : BEq (Point α) where
  beq p q := p.x == q.x && p.y == q.y

def origin : Point α := ⟨0, 0⟩

instance : Add (Point α) where
  add p q := ⟨p.x + q.x, p.y + q.y⟩

instance : Sub (Point α) where
  sub p q := ⟨p.x - q.x, p.y - q.y⟩

def distance (p q : Point α) : α := Scalar.hypot (q.x - p.x) (q.y - p.y)

/-- The point halfway, each coordinate half of the sum. -/
def midpoint (p q : Point α) : Point α :=
  ⟨Scalar.half (p.x + q.x), Scalar.half (p.y + q.y)⟩

end Point

end ArcLength
