import ArcLength.PathData.Instruction
import ArcLength.Text.Quoted

/-!
# Rejected path data

A rejection is the first fault met in path data, and `Rejection.message` words it for the data in
question.
-/

namespace ArcLength.PathData

/-- What the position of the pen was needed for when there was none. -/
inductive Need where
  /-- The origin of a relative point. -/
  | offset
  | move
  /-- The ordinate of a horizontal line. -/
  | ordinate
  /-- The abscissa of a vertical line. -/
  | abscissa
  | arcStart
  /-- The control point that a smooth curve reflects. -/
  | reflection
deriving DecidableEq, Repr

inductive Rejection where
  | shortage (s : Shortage)
  /-- A letter stands where a value is due. -/
  | notANumber (letter : Char)
  | noPosition (need : Need)
  /-- An arc ends where it starts. -/
  | emptyArc
deriving DecidableEq, Repr

def Need.message : Need → String
  | .offset => "unsupported operand type(s) for +=: 'complex' and 'NoneType'"
  | .move => "unsupported operand type(s) for +=: 'NoneType' and 'complex'"
  | .ordinate => "'NoneType' object has no attribute 'imag'"
  | .abscissa => "'NoneType' object has no attribute 'real'"
  | .arcStart => "unsupported operand type(s) for -: 'NoneType' and 'complex'"
  | .reflection => "unsupported operand type(s) for -: 'complex' and 'NoneType'"

/-- Wording of a shortage in the path data `d`. A place counts words from the front and tokens from
the back, so it may be below zero. -/
def Shortage.message (d : String) : Shortage → String
  | .noCommand remaining =>
    let place : Int := (Text.wordCount d : Int) - (remaining : Int)
    s!"Unallowed implicit command in {d}, position {place}"
  | .missingValues command remaining =>
    s!"Invalid path string: command '{command.letter}' expects {command.arity} values but only " ++
      s!"{remaining} remain in {Text.quoted d}"

/-- Wording of a rejection of the path data `d`. -/
def Rejection.message (d : String) (r : Rejection) : String :=
  "Invalid path data: " ++
    match r with
    | .shortage s => s.message d
    | .notANumber letter => s!"could not convert string to float: '{letter}'"
    | .noPosition need => need.message
    | .emptyArc => ""

end ArcLength.PathData
