import ArcLength.Decimal.Numeral
import ArcLength.Scalar

/-!
# Number literals

A text that is a number as a whole: a numeral, in which the point may also end the digits, or the
name of an infinity or of the value that is no number.
-/

namespace ArcLength

inductive Literal where
  | numeral (d : Decimal)
  | infinite ( negative : Bool)
  | nan
deriving DecidableEq, Repr

namespace Literal

/-- The digits after an optional point, and the text after them. -/
def readFraction : List Char → List Char × List Char
  | '.' :: rest => (rest.takeWhile Char.isDigit, rest.dropWhile Char.isDigit)
  | text => ([], text)

/-- The numeral without a sign that a text is. -/
def readUnsigned? ( negative : Bool) (text : List Char) : Option Decimal :=
  let whole := text.takeWhile Char.isDigit
  let fraction := readFraction (text.dropWhile Char.isDigit)
  let exponent := Decimal.readExponent fraction.2
  if whole.isEmpty && fraction.1.isEmpty then none
  else if exponent.2.isEmpty then
    some ⟨negative, Decimal.ofDigits (whole ++ fraction.1), exponent.1 - fraction.1.length⟩
  else none

/-- The literal that a text is. Names are read in either case. -/
def read? (text : List Char) : Option Literal :=
  let sign := Decimal.readSign text
  let name := String.ofList (sign.2.map Char.toLower)
  if name == "inf" || name == "infinity" then some (.infinite sign.1)
  else if name == "nan" then some .nan
  else (readUnsigned? sign.1 sign.2).map .numeral

def value {α : Type} [Scalar α] : Literal → α
  | numeral d => Scalar.ofDecimal d
  | infinite false => 1 / 0
  | infinite true => -1 / 0
  | nan => 0 / 0

end Literal

end ArcLength
