import ArcLength.Binary64
import ArcLength.Decimal.Shortest

/-!
# Written doubles

Three ways to write a double, each rounded exactly: with a fixed number of places, with a fixed
number of significant digits, and with the fewest digits that read back to it.
-/

namespace ArcLength.Binary64

def signText ( negative : Bool) : String := if negative then "-" else ""

/-- The digits of a number, at least `width` of them. -/
def paddedDigits (width n : Nat) : List Char :=
  let digits := Nat.toDigits 10 n
  List.replicate (width - digits.length) '0' ++ digits

/-- A power of ten with its sign and at least two digits. -/
def exponentText (power : Int) : String :=
  (if power < 0 then "e-" else "e+") ++ String.ofList (paddedDigits 2 power.natAbs)

/-- A double with `places` digits after the point. -/
def fixed (places : Nat) (x : Float) : String :=
  match expand x with
  | .nan => "nan"
  | .infinite negative => signText negative ++ "inf"
  | .finite negative significand exponent =>
    let digits := paddedDigits (places + 1) (Decimal.roundToPlace significand exponent (-places))
    let whole := digits.length - places
    signText negative ++ String.ofList (digits.take whole) ++ "." ++
      String.ofList (digits.drop whole)

/-- A double with `count` significant digits and a power of ten. Zeros have the digit zero only. -/
def scientific (count : Nat) (x : Float) : String :=
  match expand x with
  | .nan => "nan"
  | .infinite negative => signText negative ++ "inf"
  | .finite negative 0 _ => signText negative ++ "0"
  | .finite negative significand exponent =>
    let (n, power) := Decimal.significant count significand exponent
    let digits := Nat.toDigits 10 n
    signText negative ++ String.ofList (digits.take 1) ++ "." ++ String.ofList (digits.drop 1) ++
      exponentText power

/-- Digits that count `10 ^ place` and end in no zero, written positionally. -/
def positional (digits : List Char) (place : Int) : String :=
  if 0 ≤ place then String.ofList (digits ++ List.replicate place.toNat '0') ++ ".0"
  else
    let places := place.natAbs
    let padded := List.replicate (places + 1 - digits.length) '0' ++ digits
    let whole := padded.length - places
    String.ofList (padded.take whole) ++ "." ++ String.ofList (padded.drop whole)

/-- The fewest digits that read back, positionally from `10 ^ -4` to below `10 ^ 16`, else with a
power of ten. -/
def shortest (x : Float) : String :=
  match expand x with
  | .nan => "nan"
  | .infinite negative => signText negative ++ "inf"
  | .finite negative 0 _ => signText negative ++ "0.0"
  | .finite negative significand exponent =>
    let (n, place) := Decimal.shortest significand exponent
    let written := Nat.toDigits 10 n
    let digits := (written.reverse.dropWhile (· == '0')).reverse
    let place := place + (written.length - digits.length : Nat)
    let power := place + digits.length - 1
    signText negative ++
      if -4 ≤ power && power < 16 then positional digits place
      else
        let fraction := digits.drop 1
        String.ofList (digits.take 1) ++ (if fraction.isEmpty then "" else ".") ++
          String.ofList fraction ++ exponentText power

end ArcLength.Binary64
