import Mathlib
import ArcLength.Decimal.Numeral

/-!
# Numerals as they are written

A numeral is written as an optional sign, digits, an optional point with digits behind it, and an
optional exponent. However it is written, it is read back whole, and the text behind it is left as
it stands if it does not go on with the numeral.
-/

namespace ArcLength.Decimal

inductive Sign where
  | unwritten
  | plus
  | minus
deriving DecidableEq, Repr

def Sign.text : Sign → List Char
  | unwritten => []
  | plus => ['+']
  | minus => ['-']

def Sign.isMinus : Sign → Bool
  | unwritten => false
  | plus => false
  | minus => true

structure Exponent where
  marker : Char
  sign : Sign
  digits : List Char
  marker_eq : marker = 'e' ∨ marker = 'E'
  isDigit : ∀ c ∈ digits, c.isDigit = true
  digits_ne_nil : digits ≠ []

def Exponent.text (e : Exponent) : List Char := e.marker :: (e.sign.text ++ e.digits)

def Exponent.value (e : Exponent) : Int :=
  if e.sign.isMinus then -ofDigits e.digits else ofDigits e.digits

/-- A numeral in writing. The point is written if there are digits behind it. -/
structure Numeral where
  sign : Sign
  whole : List Char
  fraction : List Char
  exponent : Option Exponent
  isDigit_whole : ∀ c ∈ whole, c.isDigit = true
  isDigit_fraction : ∀ c ∈ fraction, c.isDigit = true
  ne_nil : whole ++ fraction ≠ []

theorem isDigit_of_mem_singleton {d : Char} (h : d.isDigit = true) :
    ∀ c ∈ [d], c.isDigit = true := by
  simpa using h

namespace Numeral

def ofDigit (c : Char) (h : c.isDigit = true) : Numeral where
  sign := .unwritten
  whole := [c]
  fraction := []
  exponent := none
  isDigit_whole := isDigit_of_mem_singleton h
  isDigit_fraction := by simp
  ne_nil := by simp

def pointText : List Char → List Char
  | [] => []
  | c :: rest => '.' :: c :: rest

def exponentText : Option Exponent → List Char
  | none => []
  | some e => e.text

def exponentValue : Option Exponent → Int
  | none => 0
  | some e => e.value

def text (n : Numeral) : List Char :=
  n.sign.text ++ (n.whole ++ (pointText n.fraction ++ exponentText n.exponent))

/-- The number that the numeral stands for. -/
def toDecimal (n : Numeral) : Decimal :=
  ⟨n.sign.isMinus, ofDigits (n.whole ++ n.fraction), exponentValue n.exponent - n.fraction.length⟩

end Numeral

variable {p : Char → Bool} {digits rest : List Char}

/-- No character of the class stands at the front. -/
def Lacks (p : Char → Bool) (rest : List Char) : Prop := ∀ c ∈ rest.head?, p c = false

theorem lacks_cons {c : Char} (h : p c = false) : Lacks p (c :: rest) := by
  simpa [Lacks] using h

/-- A text at which a numeral ends. -/
structure EndsNumeral (rest : List Char) : Prop where
  digit : Lacks Char.isDigit rest
  point : Lacks (· == '.') rest
  marker : Lacks (fun c => c == 'e' || c == 'E') rest

theorem takeWhile_append (hdigits : ∀ c ∈ digits, p c = true) (hrest : Lacks p rest) :
    (digits ++ rest).takeWhile p = digits ∧ (digits ++ rest).dropWhile p = rest := by
  rw [List.takeWhile_append_of_pos hdigits, List.dropWhile_append_of_pos hdigits]
  cases rest with
  | nil => simp
  | cons c rest =>
      have hc : p c = false := hrest c rfl
      simp [hc]

theorem ne_sign_of_isDigit {c : Char} (h : c.isDigit = true) : c ≠ '-' ∧ c ≠ '+' := by
  constructor <;> (rintro rfl; revert h; decide)

theorem readSign_of_lacks (h : Lacks (fun c => c == '-' || c == '+') rest) :
    readSign rest = (false, rest) := by
  unfold readSign
  split
  · exact absurd (h '-' rfl) (by decide)
  · exact absurd (h '+' rfl) (by decide)
  · rfl

theorem readSign_text (sign : Sign) (h : Lacks (fun c => c == '-' || c == '+') rest) :
    readSign (sign.text ++ rest) = (sign.isMinus, rest) := by
  cases sign with
  | unwritten => exact readSign_of_lacks h
  | plus => rfl
  | minus => rfl

theorem lacks_sign_append (hdigits : ∀ c ∈ digits, c.isDigit = true) (hne : digits ≠ []) :
    Lacks (fun c => c == '-' || c == '+') (digits ++ rest) := by
  cases digits with
  | nil => exact absurd rfl hne
  | cons c digits =>
      obtain ⟨hminus, hplus⟩ := ne_sign_of_isDigit (hdigits c List.mem_cons_self)
      exact lacks_cons (by simp [hminus, hplus])

theorem readExponent_text (exponent : Option Exponent) (hrest : EndsNumeral rest) :
    readExponent (Numeral.exponentText exponent ++ rest) =
      (Numeral.exponentValue exponent, rest) := by
  cases exponent with
  | none =>
      cases rest with
      | nil => rfl
      | cons c rest =>
          have hc : (c == 'e' || c == 'E') = false := hrest.marker c rfl
          change readExponent (c :: rest) = _
          simp only [readExponent, hc, Bool.false_and, Bool.false_eq_true, if_false]
          rfl
  | some e =>
      have hmarker : (e.marker == 'e' || e.marker == 'E') = true := by
        rcases e.marker_eq with h | h <;> simp [h]
      have hsign : readSign (e.sign.text ++ (e.digits ++ rest)) =
          (e.sign.isMinus, e.digits ++ rest) :=
        readSign_text e.sign (lacks_sign_append e.isDigit e.digits_ne_nil)
      obtain ⟨htake, hdrop⟩ := takeWhile_append e.isDigit hrest.digit
      have hne : e.digits.isEmpty = false := by simpa using e.digits_ne_nil
      change readExponent (e.marker :: (e.sign.text ++ e.digits ++ rest)) = _
      simp only [readExponent, List.append_assoc, hsign, htake, hdrop, hmarker, hne, Bool.not_false,
        Bool.true_and, if_true]
      rfl

theorem readFraction_text {fraction : List Char} (hfraction : ∀ c ∈ fraction, c.isDigit = true)
    (hdigit : Lacks Char.isDigit rest) (hpoint : Lacks (· == '.') rest) :
    readFraction (Numeral.pointText fraction ++ rest) = (fraction, rest) := by
  cases fraction with
  | nil =>
      change readFraction rest = ([], rest)
      unfold readFraction
      split
      · exact absurd (hpoint '.' rfl) (by decide)
      · rfl
  | cons c digits =>
      obtain ⟨htake, hdrop⟩ := takeWhile_append hfraction hdigit
      change readFraction ('.' :: (c :: digits ++ rest)) = _
      simp only [readFraction, htake, hdrop, List.isEmpty_cons, Bool.false_eq_true, if_false]

namespace Numeral

variable (n : Numeral)

theorem lacks_exponentText {exponent : Option Exponent} (hrest : Lacks p rest) (he : p 'e' = false)
    (hE : p 'E' = false) : Lacks p (exponentText exponent ++ rest) := by
  cases exponent with
  | none => exact hrest
  | some e =>
      refine lacks_cons ?_
      rcases e.marker_eq with h | h
      · rwa [h]
      · rwa [h]

theorem lacks_pointText (fraction : List Char) (hrest : Lacks p rest) (hpoint : p '.' = false) :
    Lacks p (pointText fraction ++ rest) := by
  cases fraction with
  | nil => exact hrest
  | cons c digits => exact lacks_cons hpoint

/-- A numeral goes on behind its sign with a digit or a point. -/
theorem lacks_sign_body (rest : List Char) :
    Lacks (fun c => c == '-' || c == '+') (n.whole ++ (pointText n.fraction ++ rest)) := by
  by_cases hwhole : n.whole = []
  · cases hfraction : n.fraction with
    | nil => exact absurd (by rw [hwhole, hfraction]; rfl) n.ne_nil
    | cons c digits =>
        rw [hwhole]
        exact lacks_cons (by decide)
  · exact lacks_sign_append n.isDigit_whole hwhole

/-- **A written numeral is read back whole.** -/
theorem read?_text (hrest : EndsNumeral rest) :
    read? (n.text ++ rest) = some (n.toDecimal, rest) := by
  have hexponent := readExponent_text n.exponent hrest
  have hdigit : Lacks Char.isDigit (exponentText n.exponent ++ rest) :=
    lacks_exponentText hrest.digit (by decide) (by decide)
  have hpoint : Lacks (· == '.') (exponentText n.exponent ++ rest) :=
    lacks_exponentText hrest.point (by decide) (by decide)
  have hfraction := readFraction_text n.isDigit_fraction hdigit hpoint
  obtain ⟨htake, hdrop⟩ := takeWhile_append n.isDigit_whole
    (lacks_pointText n.fraction hdigit (by decide))
  have hsign := readSign_text n.sign (n.lacks_sign_body (exponentText n.exponent ++ rest))
  have hne : (n.whole.isEmpty && n.fraction.isEmpty) = false := by
    simpa [List.isEmpty_iff] using n.ne_nil
  simp only [text, List.append_assoc, read?, hsign, htake, hdrop, hfraction, hexponent, hne,
    Bool.false_eq_true, if_false]
  rfl

end Numeral

end ArcLength.Decimal
