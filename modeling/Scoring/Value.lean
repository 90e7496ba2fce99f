import Scoring.Number.Text
import Scoring.Record
import Scoring.Vocabulary

/-!
# Values

A `Value` is what a row holds under a name: a number, a boolean, a text, or
nothing (`Value.absent`). Values are loosely typed. A text that looks like a
number serves as one (`Value.number?`), and a text or a number that looks like a
boolean serves as one (`Value.boolean?`).

A model document writes its constants as *literals*, which are texts. A literal
can be turned into a value (`Value.ofLiteral`), or a value compared with it
(`Value.matchesLiteral`).

Absent values and empty texts are both *missing* (`Value.isMissing`).
-/

namespace Scoring

/-- What a row holds under a name. -/
inductive Value
  | number (x : Float)
  | boolean (b : Bool)
  | text (s : String)
  | absent
  deriving DecidableEq

/-- The kinds of values, as messages name them. -/
inductive ValueKind
  | number | boolean | text | absent
  deriving DecidableEq, Repr

/-- The name of a kind of values. -/
def ValueKind.name : ValueKind → String
  | .number => "number"
  | .boolean => "boolean"
  | .text => "text"
  | .absent => "absent"

/-- The input of a model: the values of its fields. -/
abbrev Row := Record Value

/-- The result of a prediction: values under the names of the outputs. -/
abbrev Outputs := Record Value

/-- The value of a field; a field that the row does not have is absent. -/
def Record.value (row : Row) (field : String) : Value := (row.get? field).getD .absent

/-- The boolean that a word stands for: `true` and `1`, `false` and `0`, in any
    case and with any padding. -/
def Text.boolean? (s : String) : Option Bool :=
  match Text.lowercase (Text.trim s) with
  | "true" | "1" => some true
  | "false" | "0" => some false
  | _ => none

namespace Value

/-- The kind of a value. -/
def kind : Value → ValueKind
  | number _ => .number
  | boolean _ => .boolean
  | text _ => .text
  | absent => .absent

/-- The text of a value. -/
def display : Value → String
  | number x => Number.text x
  | boolean b => if b then "true" else "false"
  | text s => s
  | absent => "<absent>"

/-- The value of a literal: a number if it reads as one, and otherwise the text itself. -/
def ofLiteral (literal : String) : Value :=
  match Number.read? literal with
  | some x => number x
  | none => text literal

/-- Absent values and empty texts are missing. -/
def isMissing : Value → Bool
  | absent => true
  | text s => s = ""
  | _ => false

/-- The number of a value; a text may read as one. -/
def number? : Value → Option Float
  | number x => some x
  | text s => Number.read? s
  | _ => none

/-- The text of a value that is a text. -/
def text? : Value → Option String
  | text s => some s
  | _ => none

/-- The boolean of a value; a word may read as one, and the numbers zero and one do. -/
def boolean? : Value → Option Bool
  | boolean b => some b
  | text s => Text.boolean? s
  | number x => if x == 0 then some false else if x == 1 then some true else none
  | absent => none

/-- Whether two literals read as equal numbers. -/
def sameNumber (s t : String) : Bool :=
  match Number.read? s, Number.read? t with
  | some x, some y => x == y
  | _, _ => false

/-- Whether a value is what a literal says: an equal number for a number, the same
    boolean for a boolean; for a text, the very same text or an equal number. -/
def matchesLiteral (v : Value) (literal : String) : Bool :=
  match v with
  | number x => match Number.read? literal with
    | some y => y == x
    | none => false
  | boolean b => Text.boolean? literal = some b
  | text s => s = literal || sameNumber s literal
  | absent => false

end Value

end Scoring
