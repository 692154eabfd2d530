/-!
# Decimal numerals

A numeral is a sign, a whole number and a power of ten. Only zero has two of them that differ in
nothing but the sign, and number systems that tell the two apart read them differently.
-/

namespace ArcLength

/-- The numeral `± digits · 10 ^ exponent`. -/
structure Decimal where
  negative : Bool
  digits : Nat
  exponent : Int
deriving DecidableEq, Repr

end ArcLength
