import ArcLength.Decimal

/-!
# Numerals in text

A numeral is an optional sign, digits with an optional point among or before them, and an optional
exponent. A point needs a digit after it and an exponent needs a digit, else they are not part of
the numeral. `Decimal.read?` takes the longest numeral at the front of a text.
-/

namespace ArcLength.Decimal

def ofDigits (digits : List Char) : Nat :=
  digits.foldl (fun n c => 10 * n + (c.toNat - '0'.toNat)) 0

/-- Whether there is a minus sign at the front, and the text after the sign. -/
def readSign : List Char → Bool × List Char
  | '-' :: rest => (true, rest)
  | '+' :: rest => (false, rest)
  | text => (false, text)

/-- The digits after a point at the front, none if no digit follows the point. -/
def readFraction (text : List Char) : List Char × List Char :=
  match text with
  | '.' :: rest =>
    if (rest.takeWhile Char.isDigit).isEmpty then ([], text)
    else (rest.takeWhile Char.isDigit, rest.dropWhile Char.isDigit)
  | _ => ([], text)

/-- The power of ten at the front, zero if none is written. -/
def readExponent (text : List Char) : Int × List Char :=
  match text with
  | [] => (0, [])
  | c :: rest =>
    let unsigned := (readSign rest).2
    let digits := unsigned.takeWhile Char.isDigit
    if (c == 'e' || c == 'E') && !digits.isEmpty then
      let size : Int := ofDigits digits
      (if (readSign rest).1 then -size else size, unsigned.dropWhile Char.isDigit)
    else (0, text)

/-- The numeral at the front of a text, and the text after it. -/
def read? (text : List Char) : Option (Decimal × List Char) :=
  let unsigned := (readSign text).2
  let whole := unsigned.takeWhile Char.isDigit
  let fraction := readFraction (unsigned.dropWhile Char.isDigit)
  if whole.isEmpty && fraction.1.isEmpty then none
  else
    let exponent := readExponent fraction.2
    some (⟨(readSign text).1, ofDigits (whole ++ fraction.1), exponent.1 - fraction.1.length⟩,
      exponent.2)

theorem length_readSign_le (text : List Char) : (readSign text).2.length ≤ text.length := by
  unfold readSign
  split <;> simp

theorem length_takeWhile_add_dropWhile (p : Char → Bool) (text : List Char) :
    (text.takeWhile p).length + (text.dropWhile p).length = text.length := by
  rw [← List.length_append, List.takeWhile_append_dropWhile]

theorem length_readFraction (text : List Char) :
    (readFraction text).1.length + (readFraction text).2.length ≤ text.length := by
  unfold readFraction
  split
  · rename_i rest
    have := length_takeWhile_add_dropWhile Char.isDigit rest
    split
    · simp
    · simp only [List.length_cons]
      omega
  · simp

theorem length_readExponent_le (text : List Char) : (readExponent text).2.length ≤ text.length := by
  unfold readExponent
  split
  · simp
  · rename_i c rest
    have := length_readSign_le rest
    have := length_takeWhile_add_dropWhile Char.isDigit (readSign rest).2
    dsimp only
    split
    · simp only [List.length_cons]
      omega
    · simp

/-- A numeral has at least one character. -/
theorem length_lt_of_read? {text rest : List Char} {d : Decimal}
    (h : read? text = some (d, rest)) : rest.length < text.length := by
  have hsign := length_readSign_le text
  have hwhole := length_takeWhile_add_dropWhile Char.isDigit (readSign text).2
  have hfraction := length_readFraction ((readSign text).2.dropWhile Char.isDigit)
  have hexponent :=
    length_readExponent_le (readFraction ((readSign text).2.dropWhile Char.isDigit)).2
  unfold read? at h
  dsimp only at h
  split at h
  · contradiction
  · rename_i hne
    simp only [Bool.and_eq_true, List.isEmpty_iff, ← List.length_eq_zero_iff] at hne
    simp only [Option.some.injEq, Prod.mk.injEq] at h
    obtain ⟨-, rfl⟩ := h
    omega

end ArcLength.Decimal
