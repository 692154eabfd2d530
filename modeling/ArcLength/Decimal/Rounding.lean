/-!
# Rounding binary values to decimal grids

The value `significand · 2 ^ exponent` measured in units of a power of ten is a quotient of whole
numbers, so it is rounded exactly.
-/

namespace ArcLength.Decimal

/-- The whole number nearest to a quotient, the even one of two that are equally near. -/
def roundDiv (numerator denominator : Nat) : Nat :=
  let quotient := numerator / denominator
  let remainder := numerator % denominator
  if 2 * remainder < denominator then quotient
  else if denominator < 2 * remainder then quotient + 1
  else quotient + quotient % 2

/-- Numerator and denominator of `significand · 2 ^ exponent` in units of `10 ^ place`. -/
def inUnits (significand : Nat) (exponent place : Int) : Nat × Nat :=
  (significand * Nat.pow 2 exponent.toNat * Nat.pow 10 (-place).toNat,
    Nat.pow 2 (-exponent).toNat * Nat.pow 10 place.toNat)

/-- The number of units of `10 ^ place` nearest to `significand · 2 ^ exponent`. -/
def roundToPlace (significand : Nat) (exponent place : Int) : Nat :=
  let (numerator, denominator) := inUnits significand exponent place
  roundDiv numerator denominator

/-- Whether `significand · 2 ^ exponent` is below `10 ^ place`. -/
def belowPlace (significand : Nat) (exponent place : Int) : Bool :=
  let (numerator, denominator) := inUnits significand exponent place
  numerator < denominator

/-- The least power of ten above a positive value `significand · 2 ^ exponent`. The binary
logarithm tells it up to two steps. -/
def scale (significand : Nat) (exponent : Int) : Int :=
  let estimate := Int.fdiv ((significand.log2 + exponent) * 30103) 100000
  if belowPlace significand exponent estimate then estimate
  else if belowPlace significand exponent (estimate + 1) then estimate + 1
  else estimate + 2

/-- A positive value `significand · 2 ^ exponent` rounded to `count` significant digits: the digits
as a whole number, and the power of ten that the first of them counts. -/
def significant (count significand : Nat) (exponent : Int) : Nat × Int :=
  let top := scale significand exponent
  let digits := roundToPlace significand exponent (top - count)
  if digits == Nat.pow 10 count then (Nat.pow 10 (count - 1), top) else (digits, top - 1)

end ArcLength.Decimal
