import Scoring.Command

/-!
# The program

Reads the arguments, has the command carried out on the files that it names, and
writes its report.
-/

namespace Scoring

/-- How the program is called. -/
def usage : String :=
  "usage: scoring score MODEL ROWS [-c CONFIG]\n" ++
  "       scoring check MODEL ROWS EXPECTED -o OUTPUT [-c CONFIG]"

/-- The content of a file, if it can be read. -/
def readIfThere (path : String) : IO (Option String) := do
  try
    return some (← IO.FS.readFile path)
  catch _ =>
    return none

end Scoring

open Scoring in
/-- Carries out the command that the arguments ask for. -/
def main (args : List String) : IO UInt32 := do
  match Command.ofArgs? args with
  | none =>
    IO.eprintln usage
    return 2
  | some command =>
    let contents ← command.paths.mapM fun path => return (path, ← readIfThere path)
    let report := command.run fun path => (contents.lookup path).join
    for line in report.output do
      IO.println line.render
    for line in report.errors do
      IO.eprintln line
    return report.code.toUInt32
