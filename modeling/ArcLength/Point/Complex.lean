import ArcLength.Point

/-!
# Points as complex numbers

The plane read as the complex numbers. Products and quotients are computed by the plain formulas on
the parts, so an infinite part can leave a part that is no number.
-/

namespace ArcLength.Point

variable {α : Type} [Scalar α]

def ofReal (r : α) : Point α := ⟨r, 0⟩

def unit : Point α := ⟨0, 1⟩

instance : Mul (Point α) where
  mul z w := ⟨z.x * w.x - z.y * w.y, z.x * w.y + z.y * w.x⟩

/-- The complex number assembled from its parts as `x + y i`. -/
def ofParts (x y : α) : Point α := ofReal x + ofReal y * unit

/-- Quotient by the ratio of the divisor's smaller part to its larger one. -/
def divide (z w : Point α) : Point α :=
  if Scalar.abs w.y ≤ Scalar.abs w.x then
    if Scalar.abs w.x == 0 && Scalar.abs w.y == 0 then
      ⟨z.x / Scalar.abs w.x, z.y / Scalar.abs w.x⟩
    else
      let ratio := w.y / w.x
      let scale := 1 / (w.x + w.y * ratio)
      ⟨(z.x + z.y * ratio) * scale, (z.y - z.x * ratio) * scale⟩
  else
    let ratio := w.x / w.y
    let scale := 1 / (w.y + w.x * ratio)
    ⟨(z.x * ratio + z.y) * scale, (z.y * ratio - z.x) * scale⟩

instance : Div (Point α) where
  div := divide

/-- The complex number on the unit circle at an angle in radians. -/
def direction (angle : α) : Point α := ⟨Scalar.cos angle, Scalar.sin angle⟩

end ArcLength.Point
