import ArcLength.CommandLine.Number
import ArcLength.CommandLine.UsageError
import ArcLength.Path.State

/-!
# Settings

What the options ask for. An option that is given twice counts as it was given last.
-/

namespace ArcLength.CommandLine

/-- What is known of an option that has no value by itself. -/
inductive Setting (β : Type) where
  | absent
  /-- The option was given, but with nothing for a value. -/
  | blank
  | given (value : β)
deriving DecidableEq, Repr

/-- What the program is asked to do. -/
structure Settings where
  place : Setting Float
  angle : Bool
  samples : Setting Int
  /-- None if the option was given with nothing for a value. -/
  tolerance : Option Float
  verbose : Bool

def Settings.default : Settings where
  place := .absent
  angle := false
  samples := .absent
  tolerance := some defaultTolerance
  verbose := false

namespace Settings

def withValue (s : Settings) (flag : Flag) (text : String) : Except UsageError Settings :=
  let float := fun (set : Float → Settings) =>
    match readFloat? text with
    | some x => .ok (set x)
    | none => .error (.invalidValue flag .float text)
  match flag with
  | .place => float fun x => { s with place := .given x }
  | .tolerance => float fun x => { s with tolerance := some x }
  | .samples =>
    match readInt? text with
    | some n => .ok { s with samples := .given n }
    | none => .error (.invalidValue flag .int text)
  | _ => .ok s

/-- The settings with an option that is given with nothing for a value. -/
def withBlank (s : Settings) : Flag → Settings
  | .place => { s with place := .blank }
  | .tolerance => { s with tolerance := none }
  | .samples => { s with samples := .blank }
  | _ => s

/-- The settings with a value attached to an option. A double dash separates, and stands for no
value. -/
def withAttached (s : Settings) (flag : Flag) (text : String) : Except UsageError Settings :=
  if text == "--" then .ok (s.withBlank flag) else s.withValue flag text

def withSwitch (s : Settings) : Flag → Settings
  | .angle => { s with angle := true }
  | .verbose => { s with verbose := true }
  | _ => s

end Settings

end ArcLength.CommandLine
