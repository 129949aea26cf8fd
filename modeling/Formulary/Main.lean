import Formulary.CommandLine

/-!
# The program

Reads the command line and prints the report on it.
-/

open Formulary

/-- Prints the report on a run, or says why the run failed. -/
def main (arguments : List String) : IO UInt32 := do
  match CommandLine.run arguments with
  | .ok report =>
    for degradation in report.degradations do
      IO.eprintln degradation.message
    IO.print report.out
    IO.eprint report.err
    return UInt32.ofNat report.code
  | .error failure =>
    IO.eprintln failure.message
    return 1
