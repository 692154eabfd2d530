import ArcLength.Scalar

/-!
# Binary64 as a number system

`Float` with the class operations that it lacks. The hypotenuse scales its legs, so that no square
leaves the range, and corrects the root of the rounded sum by the exact remainder, which leaves it
within a unit in the last place. `Binary64.expand` gives the exact value of a double.
-/

namespace ArcLength

namespace Binary64

/-- What a double stands for: a finite one is `± significand · 2 ^ exponent`. -/
inductive Expansion where
  | nan
  | infinite ( negative : Bool)
  | finite ( negative : Bool) (significand : Nat) (exponent : Int)
deriving DecidableEq, Repr

/-- Sign, exponent field and fraction field of the format, with the hidden bit of normal values
put in place. -/
def expand (x : Float) : Expansion :=
  let bits := x.toBits.toNat
  let negative := bits / Nat.pow 2 63 == 1
  let biased : Nat := bits / Nat.pow 2 52 % Nat.pow 2 11
  let fraction : Nat := bits % Nat.pow 2 52
  if biased == 2047 then
    if fraction == 0 then .infinite negative else .nan
  else if biased == 0 then
    .finite negative fraction (-1074)
  else
    .finite negative (fraction + Nat.pow 2 52) ((biased : Int) - 1075)

/-- The power of two with an exponent in the normal range. -/
def twoPow (exponent : Int) : Float :=
  Float.ofBits (UInt64.ofNat ((exponent + 1023).toNat * Nat.pow 2 52))

def infinity : Float := Float.ofBits 0x7ff0000000000000

def notANumber : Float := Float.ofBits 0x7ff8000000000000

def digitCount (n : Nat) : Nat := (Nat.toDigits 10 n).length

/-- The double nearest to a numeral. Numerals far outside the range are settled by their size, so
that no power of ten is computed for them. -/
def ofDecimal (d : Decimal) : Float :=
  let magnitude : Float :=
    if d.digits == 0 then 0
    else
      let top := (digitCount d.digits : Int) + d.exponent
      if 400 < top then infinity
      else if top < -400 then 0
      else if d.exponent < 0 then Float.ofScientific d.digits true d.exponent.natAbs
      else Float.ofScientific d.digits false d.exponent.natAbs
  if d.negative then -magnitude else magnitude

/-- High part of a double: its upper 26 bits, so that products of such parts are exact. -/
def highPart (a : Float) : Float :=
  let t := a * 134217729
  t - (t - a)

/-- Square of a double, and what rounding took from it. -/
def squareWithError (a : Float) : Float × Float :=
  let square := a * a
  let high := highPart a
  let low := a - high
  (square, ((high * high - square) + 2 * high * low) + low * low)

/-- Hypotenuse over legs `0 ≤ short ≤ long` whose squares are normal numbers: the root of the
rounded sum and one step of Newton's iteration from it on the exact remainder. -/
def hypotInRange (long short : Float) : Float :=
  let (longSquare, longError) := squareWithError long
  let (shortSquare, shortError) := squareWithError short
  let root := (longSquare + shortSquare).sqrt
  let (rootSquare, rootError) := squareWithError root
  let remainder := ((longSquare - rootSquare) + shortSquare) + (longError + shortError - rootError)
  root + remainder / (2 * root)

/-- Legs above this are measured on a smaller scale. -/
def largestUnscaled : Float := twoPow 500

/-- Legs below this are measured on a larger scale. -/
def smallestUnscaled : Float := twoPow (-400)

def enlarging : Float := twoPow 600

def reducing : Float := twoPow (-600)

/-- Hypotenuse over two legs: infinite if a leg is, no number if one is none, and with every
intermediate result in the range. -/
def hypot (x y : Float) : Float :=
  let a := x.abs
  let b := y.abs
  if a == infinity || b == infinity then infinity
  else if a.isNaN || b.isNaN then notANumber
  else
    let long := if a < b then b else a
    let short := if a < b then a else b
    if long == 0 then 0
    else if largestUnscaled < long then
      hypotInRange (long * reducing) (short * reducing) * enlarging
    else if long < smallestUnscaled then
      hypotInRange (long * enlarging) (short * enlarging) * reducing
    else hypotInRange long short

/-- The least whole number that is no smaller than a value of moderate size. -/
def ceil (x : Float) : Nat :=
  let whole := x.toUInt64
  if whole.toFloat < x then whole.toNat + 1 else whole.toNat

def pi : Float := Float.ofBits 0x400921fb54442d18

/-- The two comparisons of doubles agree: one that is below another is at most that other. -/
theorem le_of_lt {a b : Float} (h : a < b) : a ≤ b := by
  have hcompare : a.toModel.unpack.compare b.toModel.unpack = some .lt := by
    change (decide (a.toModel < b.toModel)) = true at h
    exact eq_of_beq (of_decide_eq_true h)
  change (decide (a.toModel ≤ b.toModel)) = true
  refine decide_eq_true ?_
  change (a.toModel.unpack.compare b.toModel.unpack).any Ordering.isLE = true
  rw [hcompare]
  rfl

end Binary64

instance : Scalar Float where
  zero := 0
  one := 1
  natCast := Float.ofNat
  decLt := Float.decLt
  decLe := Float.decLe
  le_of_lt := Binary64.le_of_lt
  ofDecimal := Binary64.ofDecimal
  hypot := Binary64.hypot
  sqrt := Float.sqrt
  sin := Float.sin
  cos := Float.cos
  tan := Float.tan
  acos := Float.acos
  atan2 := Float.atan2
  pi := Binary64.pi
  ceil := Binary64.ceil

end ArcLength
