import ArcLength.CommandLine.Word
import ArcLength.Text.Quoted

/-!
# Usage errors

The ways in which a list of arguments can be refused, and their wording.
-/

namespace ArcLength.CommandLine

inductive ValueKind where
  | float
  | int
deriving DecidableEq, Repr

/-- Why a list of arguments is refused. -/
inductive UsageError where
  | ambiguous (a : Ambiguity)
  | missingValue (flag : Flag)
  | invalidValue (flag : Flag) (kind : ValueKind) (text : String)
  | ignoredValue (flag : Flag) (text : String)
  | missingData
  | unrecognized (arguments : List String)
deriving DecidableEq, Repr

def ValueKind.name : ValueKind → String
  | .float => "float"
  | .int => "int"

def UsageError.message : UsageError → String
  | .ambiguous a => s!"ambiguous option: {a.written} could match " ++ ", ".intercalate a.candidates
  | .missingValue flag => s!"argument {flag.name}: expected one argument"
  | .invalidValue flag kind text =>
    s!"argument {flag.name}: invalid {kind.name} value: {Text.quoted text}"
  | .ignoredValue flag text =>
    s!"argument {flag.name}: ignored explicit argument {Text.quoted text}"
  | .missingData => "the following arguments are required: d"
  | .unrecognized arguments => "unrecognized arguments: " ++ " ".intercalate arguments

end ArcLength.CommandLine
