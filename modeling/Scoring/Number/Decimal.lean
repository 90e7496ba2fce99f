/-!
# Decimals

A `Decimal` is a natural number of units of a power of ten. It is what stands
between a number and its text: digits are read into a decimal
(`Decimal.ofChars?`) and written from one (`Decimal.positional`), and
`Decimal.toFloat` rounds it to the nearest double.

The written form is always positional: digits, and a point before the fraction
if there is one. It never has an exponent, whatever the size of the number, and
its fraction never ends in a zero. The forms that are read are wider: a point may
lead or end the digits, and an exponent may follow them.
-/

namespace Scoring

/-- The number `significand · 10 ^ exponent`. -/
structure Decimal where
  significand : Nat
  exponent : Int
  deriving DecidableEq, Repr

namespace Decimal

/-- The number of digits of `n`, one for zero. -/
def digitCount (n : Nat) : Nat := (Nat.toDigits 10 n).length

/-- The infinite double. -/
def infinity : Float := Float.ofBits 0x7FF0000000000000

/-- The double nearest to a decimal, infinite if it is beyond the largest.

A decimal with `k` digits before the point is at least `10 ^ (k - 1)`, which no
double reaches once `k` exceeds 309, and is less than `10 ^ k`, which rounds to
zero once `k` is below -323. Only between these bounds is the power of ten
worked out, so that an exponent of any size is read in no time. -/
def toFloat (d : Decimal) : Float :=
  let whole := digitCount d.significand + d.exponent
  if d.significand = 0 ∨ whole < -323 then 0
  else if 309 < whole then infinity
  else Float.ofScientific d.significand (d.exponent < 0) d.exponent.natAbs

/-! ### Writing -/

/-- The digits without the zeros that end them. -/
def dropTrailingZeros (cs : List Char) : List Char :=
  (cs.reverse.dropWhile (· = '0')).reverse

/-- The digits of a decimal with a point in its place, and no exponent. -/
def positional (d : Decimal) : List Char :=
  let digits := Nat.toDigits 10 d.significand
  if 0 ≤ d.exponent then digits ++ List.replicate d.exponent.toNat '0'
  else
    let places := d.exponent.natAbs
    let padded := List.replicate (places + 1 - digits.length) '0' ++ digits
    let whole := padded.take (padded.length - places)
    let fraction := dropTrailingZeros (padded.drop (padded.length - places))
    if fraction.isEmpty then whole else whole ++ '.' :: fraction

/-! ### Reading -/

/-- The number that a run of digits stands for. -/
def natOfDigits (cs : List Char) : Nat :=
  cs.foldl (fun n c => 10 * n + (c.toNat - '0'.toNat)) 0

/-- A run of digits, at least one, and nothing else. -/
def natOfChars? (cs : List Char) : Option Nat :=
  if cs ≠ [] ∧ cs.all Char.isDigit then some (natOfDigits cs) else none

/-- An exponent with its mark, or nothing at all, which is the exponent zero. -/
def exponentOfChars? : List Char → Option Int
  | [] => some 0
  | mark :: '-' :: cs => if mark = 'e' ∨ mark = 'E' then (natOfChars? cs).map (- ·) else none
  | mark :: '+' :: cs => if mark = 'e' ∨ mark = 'E' then (natOfChars? cs).map (·) else none
  | mark :: cs => if mark = 'e' ∨ mark = 'E' then (natOfChars? cs).map (·) else none

/-- A numeral without a sign: digits with an optional point on either side, at
    least one digit in all, and an optional exponent. -/
def ofChars? (cs : List Char) : Option Decimal :=
  let whole := cs.takeWhile Char.isDigit
  let rest := cs.dropWhile Char.isDigit
  let (fraction, rest) := match rest with
    | '.' :: rest => (rest.takeWhile Char.isDigit, rest.dropWhile Char.isDigit)
    | rest => ([], rest)
  if whole.isEmpty && fraction.isEmpty then none
  else (exponentOfChars? rest).map fun e => ⟨natOfDigits (whole ++ fraction), e - fraction.length⟩

example : ofChars? ".5e1".toList = some ⟨5, 0⟩ := by decide
example : ofChars? "12.".toList = some ⟨12, 0⟩ := by decide
example : ofChars? ".e1".toList = none := by decide
example : positional ⟨1250, -4⟩ = "0.125".toList := by decide
example : positional ⟨3, 2⟩ = "300".toList := by decide

end Decimal

end Scoring
