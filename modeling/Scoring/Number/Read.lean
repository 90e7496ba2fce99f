import Scoring.Text.Blank
import Scoring.Number.Decimal

/-!
# Reading numbers

`Number.read?` says which texts are numbers, and which number each is. Padding
around the numeral is ignored. A sign may precede it; the numeral is a decimal
or one of the words `inf`, `infinity` and `nan` in any case. A numeral beyond the
largest double reads as infinite, and one below half the smallest as zero, so
that a text fails to be a number by its form only.
-/

namespace Scoring.Number

/-- The double that is not a number. -/
def nan : Float := Float.ofBits 0x7FF8000000000000

/-- A numeral without a sign. -/
def ofChars? (cs : List Char) : Option Float :=
  match String.ofList (cs.map Char.toLower) with
  | "inf" | "infinity" => some Decimal.infinity
  | "nan" => some nan
  | _ => (Decimal.ofChars? cs).map Decimal.toFloat

/-- A numeral with an optional sign. -/
def ofSignedChars? : List Char → Option Float
  | '-' :: cs => (ofChars? cs).map (- ·)
  | '+' :: cs => ofChars? cs
  | cs => ofChars? cs

/-- The number that a text stands for, if it is one. -/
def read? (s : String) : Option Float := ofSignedChars? (Text.trimChars s.toList)

end Scoring.Number
