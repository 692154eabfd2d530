/-!
# Path commands

A letter of path data names a command, upper case for absolute points and lower case for points
relative to the pen.
-/

namespace ArcLength.PathData

inductive Command where
  | moveTo
  | closePath
  | lineTo
  | horizontalTo
  | verticalTo
  | cubicTo
  | smoothCubicTo
  | quadTo
  | smoothQuadTo
  | arcTo
deriving DecidableEq, Repr

namespace Command

def all : List Command :=
  [moveTo, closePath, lineTo, horizontalTo, verticalTo, cubicTo, smoothCubicTo, quadTo,
    smoothQuadTo, arcTo]

def letter : Command → Char
  | moveTo => 'M'
  | closePath => 'Z'
  | lineTo => 'L'
  | horizontalTo => 'H'
  | verticalTo => 'V'
  | cubicTo => 'C'
  | smoothCubicTo => 'S'
  | quadTo => 'Q'
  | smoothQuadTo => 'T'
  | arcTo => 'A'

def arity : Command → Nat
  | moveTo => 2
  | closePath => 0
  | lineTo => 2
  | horizontalTo => 1
  | verticalTo => 1
  | cubicTo => 6
  | smoothCubicTo => 4
  | quadTo => 4
  | smoothQuadTo => 2
  | arcTo => 7

/-- The command that further values without a letter mean. -/
def repeated : Command → Command
  | moveTo => lineTo
  | c => c

def spelling (c : Command) (relative : Bool) : Char :=
  if relative then c.letter.toLower else c.letter

def ofLetter? (c : Char) : Option (Command × Bool) :=
  (all.find? fun command => command.letter == c.toUpper).map fun command => (command, c.isLower)

end Command

end ArcLength.PathData
