import ArcLength.CommandLine

/-!
# The program

Prints what `CommandLine.run` answers and exits with its code.
-/

open ArcLength in
def main (arguments : List String) : IO UInt32 := do
  match CommandLine.run ampleBudget arguments with
  | .exited code output errors =>
    for line in output do IO.println line
    for line in errors do IO.eprintln line
    return code.toUInt32
  | .aborted d f =>
    IO.eprintln (f.message d)
    return 1
  | .unfinished =>
    IO.eprintln "the path could not be measured"
    return 1
