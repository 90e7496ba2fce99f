import Scoring.Text.Blank

/-!
# Lines

A text is cut into lines at its line feeds. A carriage return before a line feed
belongs to the line end, and a line feed at the end of the text does not begin
another line.
-/

namespace Scoring.Text

/-- A line that a line feed has ended, from its characters in reverse. -/
def endedLine : List Char → List Char
  | '\r' :: reversed => reversed.reverse
  | reversed => reversed.reverse

/-- The lines of a text; `reversed` are the characters of the line that has begun. -/
def linesFrom (reversed : List Char) : List Char → List (List Char)
  | [] => if reversed.isEmpty then [] else [reversed.reverse]
  | '\n' :: cs => endedLine reversed :: linesFrom [] cs
  | c :: cs => linesFrom (c :: reversed) cs

/-- The lines of a text. -/
def lines (s : String) : List String := (linesFrom [] s.toList).map String.ofList

/-- The lines of a text that are not blank, with their numbers among all lines, from one
    on. -/
def numberedLines (s : String) : List (Nat × String) :=
  ((lines s).zipIdx 1).filterMap fun (line, number) =>
    if isBlank line then none else some (number, line)

end Scoring.Text
