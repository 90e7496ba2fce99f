import Scoring.Json.Basic
import Scoring.Number.Text

/-!
# Writing JSON

The text of a JSON value is compact, without blanks. A string keeps its characters
as they are, apart from the quote, the backslash and controls. A real number is
always seen to be one: it has a point or an exponent. It is written without an
exponent where its first digit stands between the fifth place after the point and
the sixteenth before it.
-/

namespace Scoring.Json

/-- A character as it stands in a string. -/
def escapedChar (c : Char) : List Char :=
  match c with
  | '"' => ['\\', '"']
  | '\\' => ['\\', '\\']
  | '\x08' => ['\\', 'b']
  | '\x0c' => ['\\', 'f']
  | '\n' => ['\\', 'n']
  | '\r' => ['\\', 'r']
  | '\t' => ['\\', 't']
  | c =>
    if c < ' ' then
      let digits := Nat.toDigits 16 c.toNat
      ['\\', 'u'] ++ List.replicate (4 - digits.length) '0' ++ digits
    else [c]

/-- A string between quotes. -/
def stringText (s : String) : String :=
  String.ofList ('"' :: s.toList.flatMap escapedChar ++ ['"'])

/-- The text of a decimal that is not negative, with a point or an exponent. -/
def decimalText (d : Decimal) : List Char :=
  let all := Nat.toDigits 10 d.significand
  let digits := match Decimal.dropTrailingZeros all with
    | [] => ['0']
    | digits => digits
  let exponent : Int := if d.significand = 0 then 0 else d.exponent + (all.length - digits.length)
  let places := digits.length + exponent
  if 0 ≤ exponent ∧ places ≤ 16 then
    digits ++ List.replicate exponent.toNat '0' ++ ['.', '0']
  else if -5 < places ∧ places ≤ 16 then Decimal.positional ⟨d.significand, d.exponent⟩
  else
    let mantissa := match digits with
      | first :: rest => if rest.isEmpty then [first] else first :: '.' :: rest
      | [] => []
    mantissa ++ 'e' :: (toString (places - 1)).toList

/-- The text of a finite number. -/
def realText (x : Float) : String :=
  let digits := String.ofList (decimalText (Number.shortest x.abs))
  if x.toBits >>> 63 = 0 then digits else "-" ++ digits

mutual

/-- The text of a value. What is unreadable has none, and is written as `null`. -/
def text : Json → String
  | null | unreadable => "null"
  | boolean b => if b then "true" else "false"
  | integer n => toString n
  | real x => realText x
  | string s => stringText s
  | array elements => "[" ++ elementTexts elements ++ "]"
  | object members => "\x7b" ++ memberTexts members ++ "\x7d"

/-- The texts of the elements of an array, with commas between them. -/
def elementTexts : List Json → String
  | [] => ""
  | [v] => v.text
  | v :: vs => v.text ++ "," ++ elementTexts vs

/-- The texts of the members of an object, with commas between them. -/
def memberTexts : List (String × Json) → String
  | [] => ""
  | [(name, v)] => stringText name ++ ":" ++ v.text
  | (name, v) :: members => stringText name ++ ":" ++ v.text ++ "," ++ memberTexts members

end

example : decimalText ⟨15, -1⟩ = "1.5".toList := by decide
example : decimalText ⟨30, 0⟩ = "30.0".toList := by decide
example : decimalText ⟨123, 20⟩ = "1.23e22".toList := by decide
example : decimalText ⟨5, -7⟩ = "5e-7".toList := by decide

end Scoring.Json
