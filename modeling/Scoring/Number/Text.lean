import Scoring.Number.Read

/-!
# Writing numbers

The text of a number is the shortest that reads back as the same number
(`Number.text`). A finite double is a decimal exactly (`Number.exact`), as a
power of two divides a power of ten. Dropping the last digits of that decimal
leaves two neighbours (`Decimal.neighbours`), the one below and the one above.
The digits written are those of the first neighbour that reads back, where one
digit is tried first, then two, up to seventeen, and of two neighbours the nearer
(`Number.shortest`).
-/

namespace Scoring

/-- The two decimals on either side of `d` that do without its last `cut` digits, the
    nearer first; at the same distance, the one above comes first. -/
def Decimal.neighbours (d : Decimal) (cut : Nat) : List Decimal :=
  let unit := Nat.pow 10 cut
  let below : Decimal := ⟨d.significand / unit, d.exponent + cut⟩
  let above : Decimal := ⟨d.significand / unit + 1, d.exponent + cut⟩
  if 2 * (d.significand % unit) < unit then [below, above] else [above, below]

namespace Number

/-- A finite double that is not negative, as a decimal without rounding.

The double is `m · 2 ^ q`; where `q` is negative, `2 ^ q = 5 ^ -q · 10 ^ q`. -/
def exact (x : Float) : Decimal :=
  let bits := x.toBits.toNat
  let fraction := bits % 0x10000000000000
  let biased := bits / 0x10000000000000 % 0x800
  let m := if biased = 0 then fraction else fraction + 0x10000000000000
  let q := ((max biased 1 : Nat) : Int) - 1075
  if 0 ≤ q then ⟨m * Nat.pow 2 q.toNat, 0⟩ else ⟨m * Nat.pow 5 q.natAbs, q⟩

/-- Whether the text of a decimal reads as `x`. Rounding the decimal itself is much
    quicker, and rules out nearly all that do not. -/
def readsBack (x : Float) (d : Decimal) : Bool :=
  d.toFloat = x && ofChars? d.positional = some x

/-- The fewest digits that read back as `x`, a finite double that is not negative. -/
def shortest (x : Float) : Decimal :=
  let d := exact x
  let length := Decimal.digitCount d.significand
  ((List.range 17).findSome? fun n =>
    (d.neighbours (length - (n + 1))).find? (readsBack x)).getD d

/-- The text of a number: its shortest digits, never an exponent, with the words
    `NaN`, `inf` and `-inf` for what has no digits. -/
def text (x : Float) : String :=
  if x.isNaN then "NaN"
  else
    let digits := if x.isInf then "inf" else String.ofList (shortest x.abs).positional
    if x.toBits >>> 63 = 0 then digits else "-" ++ digits

end Number

end Scoring
