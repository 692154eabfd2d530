import ArcLength.Decimal.Literal
import ArcLength.Service.Issue
import ArcLength.Text.Blank

/-!
# Numbers in texts

Texts that stand for numbers in a body. A whole number has a plain form, and a text in a looser form
is tidied into the plain one before it is read.
-/

namespace ArcLength.Service

/-- A text without underscores; `none` if one stands at an end or two stand together. -/
def stripUnderscores? (text : List Char) : Option (List Char) :=
  let doubled := (text.zip (text.drop 1)).any fun pair => pair.1 == '_' && pair.2 == '_'
  if text.head? == some '_' || text.getLast? == some '_' || doubled then none
  else some (text.filter (· != '_'))

/-- The number that a text is, with blanks at its ends or underscores in it but not both. -/
def readNumber? (text : String) : Option Literal :=
  match Literal.read? (Text.trim Text.isWhiteSpace text.toList) with
  | some literal => some literal
  | none => do Literal.read? (← stripUnderscores? text.toList)

/-- Whole numbers have at most this many digits in plain form. -/
def maximalDigits : Nat := 4300

/-- Whether there is a minus sign at the front, and the text after it. -/
def splitMinus : List Char → Bool × List Char
  | '-' :: rest => (true, rest)
  | text => (false, text)

/-- The whole number that a text is in plain form: a minus sign or none, and digits of which the
first is no zero unless it is the only one. -/
def readPlainInteger? (text : List Char) : Option Int :=
  let (negative, digits) := splitMinus text
  let padded := digits.head? == some '0' && digits.length != 1
  if digits.isEmpty || padded || !digits.all Char.isDigit || maximalDigits < digits.length then none
  else
    let size : Int := Decimal.ofDigits digits
    some (if negative then -size else size)

/-- Whether a text begins like a whole number in plain form but runs on for too long. -/
def runsTooLong (text : List Char) : Bool :=
  let digits := (splitMinus text).2.takeWhile Char.isDigit
  digits.head? != some '0' && maximalDigits < digits.length

/-- A text without the zeros at its front and the underscores among them. The last of these
characters stays where a point follows or nothing. A sign may follow the zeros. -/
def withoutLeadingZeros? (text : List Char) : Option (List Char) :=
  match text with
  | '0' :: rest =>
    let isPadding := fun c => c == '0' || c == '_'
    let padding := '0' :: rest.takeWhile isPadding
    let kept := rest.dropWhile isPadding
    match kept with
    | [] => some (padding.drop (padding.length - 1))
    | '.' :: _ => some (padding.drop (padding.length - 1) ++ kept)
    | c :: _ => if c == '-' || c.isDigit then some kept else none
  | c :: _ => if c == '-' || c.isDigit then some text else none
  | [] => none

/-- A text without a point that zeros follow to the end, at least one. -/
def withoutZeroFraction (text : List Char) : List Char :=
  match text.dropWhile (· != '.') with
  | '.' :: '0' :: zeros => if zeros.all (· == '0') then text.takeWhile (· != '.') else text
  | _ => text

/-- The text after a plus sign at the front; `none` if a minus sign follows it. -/
def withoutPlus? : List Char → Option (List Char)
  | '+' :: '-' :: _ => none
  | '+' :: rest => some rest
  | text => some text

/-- The plain form of a whole number that may have blanks at its ends, a plus sign, leading zeros, a
fraction of zeros and single underscores. The minus sign is set aside and put back. -/
def tidy? (text : List Char) : Option (List Char) := do
  let (negative, unsigned) := splitMinus (← withoutPlus? (Text.trim Text.isWhiteSpace text))
  let digits ← stripUnderscores? (withoutZeroFraction (← withoutLeadingZeros? unsigned))
  return if negative then '-' :: digits else digits

/-- The whole number that a text is. Only a text that is not tidied first is reported as too
long. -/
def readInteger (text : String) : Except Fault Int :=
  match readPlainInteger? text.toList with
  | some n => .ok n
  | none =>
    if runsTooLong text.toList then .error .tooLarge
    else
      match (tidy? text.toList).bind readPlainInteger? with
      | some n => .ok n
      | none => .error .unreadableInteger

end ArcLength.Service
