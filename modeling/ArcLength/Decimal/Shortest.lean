import ArcLength.Decimal.Rounding

/-!
# Fewest digits

The shortest decimal that reads back to a binary value. The values that round to
`significand · 2 ^ exponent` form an interval between the midpoints to its neighbours, and each
decimal grid is tried, from coarse to fine, until one has a point in the interval.
-/

namespace ArcLength.Decimal

/-- The interval that rounds to a value, all in units of a quarter of the value's own spacing
`2 ^ exponent`. The neighbour below a power of two is nearer by half. -/
structure RoundingInterval where
  low : Nat
  center : Nat
  high : Nat
  /-- Whether the ends belong to it. -/
  closed : Bool
deriving DecidableEq, Repr

def roundingInterval (significand : Nat) (exponent : Int) : RoundingInterval where
  low := 4 * significand - if significand == Nat.pow 2 52 && -1074 < exponent then 1 else 2
  center := 4 * significand
  high := 4 * significand + 2
  closed := significand % 2 == 0

/-- Whether `digits · 10 ^ place` lies in an interval whose unit is `2 ^ exponent`. -/
def RoundingInterval.contains (i : RoundingInterval) (exponent : Int) (digits : Nat)
    (place : Int) : Bool :=
  let (unit, denominator) := inUnits 1 exponent place
  let value := digits * denominator
  if i.closed then i.low * unit ≤ value && value ≤ i.high * unit
  else i.low * unit < value && value < i.high * unit

/-- The point of the grid of `10 ^ place` in the interval that is nearest to the value, the even one
of two that are equally near. -/
def onGrid? (i : RoundingInterval) (exponent place : Int) : Option Nat :=
  let (unit, denominator) := inUnits 1 exponent place
  let value := i.center * unit
  let below := value / denominator
  let fits := fun digits => i.contains exponent digits place
  match fits below, fits (below + 1) with
  | true, false => some below
  | false, true => some (below + 1)
  | true, true => some (roundDiv value denominator)
  | false, false => none

/-- The digits of the shortest decimal for a positive value, and the power of ten that the last
of them counts. Seventeen digits always suffice. -/
def shortest (significand : Nat) (exponent : Int) : Nat × Int :=
  let top := scale significand exponent
  let interval := roundingInterval significand exponent
  let grid? := fun (count : Nat) =>
    (onGrid? interval (exponent - 2) (top - count)).map fun digits => (digits, top - count)
  ((List.range 17).findSome? fun n => grid? (n + 1)).getD
    (roundToPlace significand exponent (top - 17), top - 17)

end ArcLength.Decimal
