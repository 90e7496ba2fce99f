/-!
# Whole powers and whole parts

`Number.power` raises a number to a whole exponent by repeated squaring, from
the lowest bit of the exponent up, so that its rounding is that of this order of
multiplications and of no other. A negative exponent inverts the result at the
end. `Number.truncate` drops the fraction of a number, toward zero.
-/

namespace Scoring.Number

/-- `acc` times the power `n` of `x`: `acc` takes up the squares of `x` that the
    bits of `n` call for. The last square is not computed, as nothing needs it. -/
def powerFrom (acc x : Float) (n : Nat) : Float :=
  let acc := if n % 2 = 1 then acc * x else acc
  if n / 2 = 0 then acc else powerFrom acc (x * x) (n / 2)
termination_by n

/-- The power of `x` with a whole exponent. -/
def power (x : Float) (exponent : Int) : Float :=
  let r := powerFrom 1 x exponent.natAbs
  if exponent < 0 then 1 / r else r

/-- The number without its fraction, and with its sign.

Of a double below one nothing is left but a zero of its sign; one of at least
`2 ^ 52`, an infinity and what is not a number have no fraction bits to clear. -/
def truncate (x : Float) : Float :=
  let bits := x.toBits
  let biased := (bits >>> 52) &&& 0x7FF
  if biased < 1023 then Float.ofBits (bits &&& 0x8000000000000000)
  else if 1075 ≤ biased then x
  else Float.ofBits (bits &&& ~~~ ((0xFFFFFFFFFFFFF : UInt64) >>> (biased - 1023)))

end Scoring.Number
