import Scoring.Load
import Scoring.Text.Lines
import Scoring.Text.Quoted

/-!
# Rows and expected values

Rows are read from a text that has one on each line, as a JSON object
(`Input.rows`). The numbers that an output is expected to have are read from a text
that has one on each line too, within brackets or without (`Input.expected`). Blank
lines are passed over, but they count where a line is named by its number.
-/

namespace Scoring

/-- Why a text of rows or of expected values is refused. -/
inductive InputError
  /-- A line that is not a row. -/
  | row (line : Nat)
  /-- A line that is not a number. -/
  | expected (line : Nat) (text : String)
  deriving DecidableEq, Repr

/-- The wording of an input error. -/
def InputError.message : InputError → String
  | row line => "line " ++ toString line ++ ": invalid row"
  | expected line text =>
    "line " ++ toString line ++ ": invalid expected value " ++ Text.quoted text

namespace Input

/-- What each of the numbered lines says, or the error of the first that says nothing. -/
def readLines {α : Type} (read? : String → Option α) (error : Nat → String → InputError) :
    List (Nat × String) → Except InputError (List α)
  | [] => .ok []
  | (number, line) :: lines =>
    match read? line with
    | none => .error (error number line)
    | some a => (a :: ·) <$> readLines read? error lines

/-- The rows of a text. -/
def rows [JsonReader] (text : String) : Except InputError (List Row) :=
  readLines (loadText? Row.ofJson?) (fun number _ => .row number) (Text.numberedLines text)

/-- What is left of the characters without a bracket at the beginning and one at the
    end, each of which may be there without the other. -/
def stripBrackets (cs : List Char) : List Char :=
  let cs := match cs with
    | '[' :: cs => cs
    | cs => cs
  match cs.reverse with
  | ']' :: reversed => reversed.reverse
  | _ => cs

/-- The number of a line of expected values. -/
def expectedNumber? (line : String) : Option Float :=
  Number.read? (String.ofList (stripBrackets (Text.trimChars line.toList)))

/-- The numbers of a text of expected values. -/
def expected (text : String) : Except InputError (List Float) :=
  readLines expectedNumber? (fun number line => .expected number (Text.trim line))
    (Text.numberedLines text)

end Input

end Scoring
