/-!
# Options of the command line

Each option has one or more spellings, of which a long one may be cut short as long as it stays
unique.
-/

namespace ArcLength.CommandLine

inductive Flag where
  | help
  | place
  | angle
  | samples
  | tolerance
  | verbose
deriving DecidableEq, Repr

/-- Every spelling with its option, in the order in which candidates are listed. -/
def spellings : List (String × Flag) := [
  ("-h", .help), ("--help", .help), ("--at", .place), ("--angle", .angle),
  ("--samples", .samples), ("--tolerance", .tolerance), ("-v", .verbose), ("--verbose", .verbose)]

def Flag.ofSpelling? (text : String) : Option Flag := spellings.lookup text

def Flag.takesValue : Flag → Bool
  | .help => false
  | .place => true
  | .angle => false
  | .samples => true
  | .tolerance => true
  | .verbose => false

/-- All spellings of the option, as messages name it. -/
def Flag.name (f : Flag) : String :=
  "/".intercalate ((spellings.filter fun entry => entry.2 == f).map Prod.fst)

/-- The synopsis of the program. -/
def synopsis : String :=
  "usage: pathwalk [-h] [--at DIST] [--angle] [--samples N] [--tolerance TOLERANCE] [-v] d"

end ArcLength.CommandLine
