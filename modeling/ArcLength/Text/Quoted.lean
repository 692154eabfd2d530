import ArcLength.Text.Printable

/-!
# Quoted text

A text in quotes, with everything that is not printable written as an escape. The quotes are single
unless the text has single quotes and no double ones.
-/

namespace ArcLength.Text

def singleQuote : Char := Char.ofNat 0x27

def doubleQuote : Char := Char.ofNat 0x22

/-- The lower-case hexadecimal digits of a number, at least `width` of them. -/
def hexadecimal (width n : Nat) : String :=
  let digits := Nat.toDigits 16 n
  String.ofList (List.replicate (width - digits.length) '0' ++ digits)

/-- One character within quotes of the given kind. -/
def escaped (quote c : Char) : String :=
  if c == quote || c == '\\' then String.ofList ['\\', c]
  else if c == '\n' then "\\n"
  else if c == '\r' then "\\r"
  else if c == '\t' then "\\t"
  else if isPrintable c then String.ofList [c]
  else if c.toNat < 0x100 then "\\x" ++ hexadecimal 2 c.toNat
  else if c.toNat < 0x10000 then "\\u" ++ hexadecimal 4 c.toNat
  else "\\U" ++ hexadecimal 8 c.toNat

/-- The quote for a text. -/
def quoteFor (text : String) : Char :=
  if text.toList.contains singleQuote && !text.toList.contains doubleQuote then doubleQuote
  else singleQuote

def quoted (text : String) : String :=
  let quote := quoteFor text
  String.ofList [quote] ++ String.join (text.toList.map (escaped quote)) ++ String.ofList [quote]

end ArcLength.Text
