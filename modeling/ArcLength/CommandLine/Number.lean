import ArcLength.Binary64
import ArcLength.Decimal.Literal
import ArcLength.Text.Blank
import ArcLength.Text.Digit

/-!
# Numbers on the command line

Values of options may have blanks around them, digits of any script, and single underscores between
digits.
-/

namespace ArcLength.CommandLine

/-- A text without blanks at its ends and with its digits in ASCII. -/
def plainText (text : String) : List Char :=
  (Text.trim Text.isWhiteSpace text.toList).map Text.toAsciiDigit

/-- A text without the underscores between its digits; `none` if one stands elsewhere. The first
argument is the character before. -/
def withoutUnderscores? : Option Char → List Char → Option (List Char)
  | before, [] => if before == some '_' then none else some []
  | before, c :: rest =>
    if c == '_' then
      if before.any Char.isDigit then withoutUnderscores? (some c) rest else none
    else if before == some '_' && !c.isDigit then none
    else (withoutUnderscores? (some c) rest).map (c :: ·)

def readFloat? (text : String) : Option Float := do
  let digits ← withoutUnderscores? none (plainText text)
  let literal ← Literal.read? digits
  return literal.value

/-- Whole numbers have at most this many digits. -/
def maximalDigits : Nat := 4300

def readInt? (text : String) : Option Int := do
  let (negative, unsigned) := Decimal.readSign (plainText text)
  let digits ← withoutUnderscores? none unsigned
  if digits.isEmpty || !digits.all Char.isDigit || maximalDigits < digits.length then none
  else
    let size : Int := Decimal.ofDigits digits
    return if negative then -size else size

end ArcLength.CommandLine
