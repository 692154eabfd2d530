import ArcLength.CommandLine.Request
import ArcLength.Binary64.Notation
import ArcLength.Path.Query
import ArcLength.PathData

/-!
# The command line

`CommandLine.run` answers a list of arguments by an exit code, lines of output and a text for the
error stream. Numbers are written with six places.
-/

namespace ArcLength.CommandLine

inductive Outcome where
  | exited (code : Nat) (output : List String) (errors : List String)
  /-- Path data that gives no path for a reason other than a rejection. -/
  | aborted (d : String) (f : PathData.Failure)
  /-- There is no answer, for lack of budget or of the value of an option. -/
  | unfinished
deriving DecidableEq, Repr

def numberText (x : Float) : String := Binary64.fixed 6 x

def pointText (p : Point Float) : String := numberText p.x ++ " " ++ numberText p.y

/-- A result that has one line if the place was reached. -/
def atPlace (place : Float) (line : String) (reached : Bool) : Outcome :=
  if reached then .exited 0 [line] []
  else .exited 1 [] [s!"distance {Binary64.shortest place} is beyond the end of the path"]

/-- Measures a path to a tolerance as the settings ask; `none` if the budget runs out or a value is
missing. Samples come before a place, and a place before the length. -/
def measure (budget : Nat) (p : Path Float) (tolerance : Float) (s : Settings) :
    Option Outcome := do
  match s.samples, s.place with
  | .given count, _ =>
    let points ← p.samplePoints budget count tolerance
    return .exited 0 (points.map pointText) []
  | .blank, _ => none
  | .absent, .absent =>
    let length ← p.length budget tolerance
    return .exited 0 [numberText length] []
  | .absent, .blank => none
  | .absent, .given place =>
    if s.angle then
      let (angle, reached) ← p.normalAngleAtLength budget place tolerance
      return atPlace place (numberText angle) reached
    else
      let (point, reached) ← p.pointAtLength budget place tolerance
      return atPlace place (pointText point) reached

/-- Measures a path as the settings ask. Without a tolerance there is no budget for curves, so only
paths on which no curve is met are measured. -/
def report (budget : Nat) (p : Path Float) (s : Settings) : Option Outcome :=
  match s.tolerance with
  | some tolerance => measure budget p tolerance s
  | none => measure 0 p defaultTolerance s

def Request.run (budget : Nat) : Request → Outcome
  | .help => .exited 0 [synopsis] []
  | .measure d s =>
    match Path.ofData d with
    | .ok p => (report budget p s).getD .unfinished
    | .error (.rejected r) => .exited 1 [] ["error: " ++ r.message d]
    | .error f => .aborted d f

def run (budget : Nat) (arguments : List String) : Outcome :=
  match Request.ofArguments arguments with
  | .ok request => request.run budget
  | .error e => .exited 2 [] [synopsis, "pathwalk: error: " ++ e.message]

end ArcLength.CommandLine
