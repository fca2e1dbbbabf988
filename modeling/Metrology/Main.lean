import Metrology.CommandLine

/-!
The program: reads arguments and environment, prints the report and exits with its status.
-/

open Metrology

def main (arguments : List String) : IO UInt32 := do
  let found ← Settings.variableNames.mapM fun name => return (name, ← IO.getEnv name)
  match CommandLine.run .standard (fun name => (found.lookup name).join) arguments with
  | .ok report =>
    report.out.forM IO.println
    report.err.forM IO.eprintln
    return report.status.toUInt32
  | .error e =>
    IO.eprintln e.message
    return 1
