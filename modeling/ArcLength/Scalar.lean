import ArcLength.Decimal

/-!
# Scalars

Coordinates, lengths and angles are scalars. The class lists the operations that measuring a path
takes. It assumes no law of the arithmetic, and of the order only that strictly below implies at
most, so one set of definitions runs on binary64 and can be read over the reals.
-/

namespace ArcLength

/-- A number system to measure in. The order may leave values incomparable, and `==` is the
numeric equality, which need not be reflexive. -/
class Scalar (α : Type) extends Zero α, One α, NatCast α, Add α, Sub α, Mul α, Div α, Neg α,
    LT α, LE α, BEq α where
  decLt : DecidableLT α
  decLe : DecidableLE α
  /-- What is below a value is at most that value. -/
  le_of_lt : ∀ {a b : α}, a < b → a ≤ b
  /-- The value of a numeral, rounded where the system has to. -/
  ofDecimal : Decimal → α
  hypot : α → α → α
  sqrt : α → α
  sin : α → α
  cos : α → α
  tan : α → α
  acos : α → α
  /-- The angle of a vector, from its second coordinate and its first. -/
  atan2 : α → α → α
  pi : α
  /-- The least whole number that is no smaller than the argument. -/
  ceil : α → Nat

attribute [reducible, instance] Scalar.decLt Scalar.decLe

namespace Scalar

variable {α : Type} [Scalar α]

/-- The second value if it is above the first, and the first otherwise. -/
def max (a b : α) : α := if a < b then b else a

def abs (a : α) : α := if a < 0 then -a else a

/-- The value moved into the interval from `low` to `high`; one that compares with neither end
stays. -/
def clamp (low high a : α) : α := if a < low then low else if high < a then high else a

/-- Degrees in an angle given in radians. -/
def degrees (a : α) : α := a * (((180 : Nat) : α) / pi)

/-- Radians in an angle given in degrees. -/
def radians (a : α) : α := a * (pi / ((180 : Nat) : α))

def half (a : α) : α := a / ((2 : Nat) : α)

end Scalar

end ArcLength
