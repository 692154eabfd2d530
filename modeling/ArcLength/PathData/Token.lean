import ArcLength.Decimal.Numeral
import ArcLength.PathData.Command
import ArcLength.Text.Blank

/-!
# Tokens

Path data is letters and numerals; whatever else stands between them is skipped. After an arc
letter the values come in rounds of seven, two of which are flags that take one digit each, and
the first thing that is neither a value nor a separator ends the values of that letter.
-/

namespace ArcLength.PathData

inductive Token where
  | letter (c : Command) (relative : Bool)
  | value (d : Decimal)
deriving DecidableEq, Repr

/-- How the text after a letter is read. -/
inductive Mode where
  | values
  | arcValues (field : Nat)
  | ignored
deriving DecidableEq, Repr

def Mode.after : Command → Mode
  | .arcTo => .arcValues 0
  | _ => .values

/-- The flags of an arc are the fourth and fifth of its seven values. -/
def isFlagField (field : Nat) : Bool := field % 7 == 3 || field % 7 == 4

def flag? (c : Char) : Option Decimal :=
  if c == '0' then some ⟨false, 0, 0⟩
  else if c == '1' then some ⟨false, 1, 0⟩
  else none

namespace Token

/-- The tokens of a text that is read in a mode. -/
def scan (mode : Mode) (text : List Char) : List Token :=
  match text with
  | [] => []
  | c :: rest =>
    match Command.ofLetter? c with
    | some (command, relative) => .letter command relative :: scan (.after command) rest
    | none =>
      match mode with
      | .values =>
        match h : Decimal.read? (c :: rest) with
        | some (d, after) =>
          have := Decimal.length_lt_of_read? h
          .value d :: scan .values after
        | none => scan .values rest
      | .arcValues field =>
        if Text.isBlank c || c == ',' then scan (.arcValues field) rest
        else
          match if isFlagField field then flag? c else none with
          | some d => .value d :: scan (.arcValues (field + 1)) rest
          | none =>
            match h : Decimal.read? (c :: rest) with
            | some (d, after) =>
              have := Decimal.length_lt_of_read? h
              .value d :: scan (.arcValues (field + 1)) after
            | none => scan .ignored rest
      | .ignored => scan .ignored rest
termination_by text.length
decreasing_by all_goals simp_all

def ofText (d : String) : List Token := scan .values d.toList

end Token

end ArcLength.PathData
