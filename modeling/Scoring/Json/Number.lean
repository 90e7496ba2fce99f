import Scoring.Json.Basic
import Scoring.Number.Read

/-!
# Numbers in JSON

A JSON number is a decimal numeral of a stricter form than `Decimal.ofChars?` reads:
it has digits before the point, and no zero before other digits; a point is followed
by a digit; the only sign is `-`.

A numeral without point and exponent is an integer, as long as 64 bits hold it; a
greater one is a real number, and so is `-0`, as integers know no negative zero.

A real number is not the double nearest to its numeral, only one that is near. Its digits
go into a significand of 64 bits, which leaves out what it cannot hold (`takeDigits`). The
double nearest to the significand is then multiplied or divided by the double nearest to a
power of ten, with one more rounding (`scaled`). A product that is infinite is no number,
although the numeral may just be below the largest double.
-/

namespace Scoring.Json

/-- Whether a numeral without its sign has the form that JSON asks for, as far as that
    is stricter than the form of decimals. -/
def isStrictNumeral (cs : List Char) : Bool :=
  let wholeOk := match cs with
    | '0' :: c :: _ => !c.isDigit
    | c :: _ => c.isDigit
    | [] => false
  let fractionOk := match cs.dropWhile Char.isDigit with
    | '.' :: c :: _ => c.isDigit
    | '.' :: [] => false
    | _ => true
  wholeOk && fractionOk

/-- A significand with digits put to it, up to the first that 64 bits do not hold, and the
    number of these digits. -/
def takeDigits (significand : Nat) : List Char → Nat × Nat
  | [] => (significand, 0)
  | c :: cs =>
    let next := 10 * significand + (c.toNat - '0'.toNat)
    if next < UInt64.size then
      let (significand, taken) := takeDigits next cs
      (significand, taken + 1)
    else (significand, 0)

/-- A number multiplied by a power of ten. Powers beyond `10 ^ 308` are taken in steps when
    they divide; when they multiply, they exceed all doubles. -/
def scaled (x : Float) (exponent : Int) : Float :=
  if exponent.natAbs ≤ 308 then
    let power := Float.ofScientific 1 false exponent.natAbs
    if 0 ≤ exponent then x * power else x / power
  else if x == 0 then x
  else if 0 ≤ exponent then Decimal.infinity
  else scaled (x / 1e308) (exponent + 308)
termination_by exponent.natAbs
decreasing_by omega

/-- The real number of the digits before and after a point, and an exponent. -/
def realOfDigits (whole fraction : List Char) (exponent : Int) : Float :=
  let (significand, taken) := takeDigits 0 whole
  -- A digit before the point that is left out counts for a power of ten.
  let leftOut := whole.length - taken
  let (significand, taken) := takeDigits significand fraction
  scaled (Float.ofNat significand) (exponent + leftOut - taken)

/-- The value of the digits before and after a point, and an exponent; `bare` says that there
    are neither of these two. -/
def ofDigits (negative bare : Bool) (whole fraction : List Char) (exponent : Int) : Json :=
  let n : Int := Decimal.natOfDigits whole
  let n := if negative then - n else n
  if bare && !(negative && n = 0) && Int64.minValue.toInt ≤ n && n < UInt64.size then integer n
  else
    let x := realOfDigits whole fraction exponent
    if x.isFinite then real (if negative then - x else x) else unreadable

/-- The value of a numeral, given its sign. -/
def ofNumeral (negative : Bool) (cs : List Char) : Option Json :=
  if !isStrictNumeral cs then none
  else
    let whole := cs.takeWhile Char.isDigit
    let (fraction, rest) := match cs.dropWhile Char.isDigit with
      | '.' :: rest => (rest.takeWhile Char.isDigit, rest.dropWhile Char.isDigit)
      | rest => ([], rest)
    (Decimal.exponentOfChars? rest).map (ofDigits negative (cs.all Char.isDigit) whole fraction)

/-- The value that the characters of a number stand for. -/
def ofNumberChars : List Char → Option Json
  | '-' :: cs => ofNumeral true cs
  | cs => ofNumeral false cs

/-- The characters that numbers are made of. -/
def isNumberChar (c : Char) : Bool :=
  c.isDigit || c = '-' || c = '+' || c = '.' || c = 'e' || c = 'E'

end Scoring.Json
