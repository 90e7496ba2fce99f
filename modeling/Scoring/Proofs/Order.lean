import Mathlib.Data.Prod.Lex
import Scoring.Proofs.Finite

/-!
# The order of doubles

The doubles that are numbers stand in a line, which goes from minus infinity over the negative
numbers, both zeros and the positive numbers to infinity. Where a number stands is its rank
(`Double.rank?`), and numbers are compared as their ranks are (`Double.compare_eq`). Of two
numbers the one with the smaller rank is the smaller (`Double.lt_iff`), and numbers with the same
rank are equal (`Double.beq_iff`).

What is not a number has no rank. It is neither smaller nor greater than anything, nor equal to
anything, and so the comparisons of doubles are transitive without an exception
(`Double.lt_trans`, `Double.lt_of_lt_of_beq`).
-/

namespace Scoring.Double

open Float.Model UnpackedFloat

/-- The place of a number among all others. Finite numbers of one sign are told apart by the
    exponent first and then by the mantissa. -/
def rank? : UnpackedFloat → Option (ℤ ×ₗ ℤ ×ₗ ℤ)
  | .notANumber => none
  | .infinity .negative => some (toLex (-2, toLex (0, 0)))
  | .finite .negative mantissa exponent _ => some (toLex (-1, toLex (-exponent, -mantissa)))
  | .zero _ => some (toLex (0, toLex (0, 0)))
  | .finite .positive mantissa exponent _ => some (toLex (1, toLex (exponent, mantissa)))
  | .infinity .positive => some (toLex (2, toLex (0, 0)))

/-- Between ranks with the same first place the second decides, and then the third. -/
theorem compare_rank (sign a b c d : ℤ) :
    compare (toLex (sign, toLex (a, b))) (toLex (sign, toLex (c, d))) =
      (compare a c).then (compare b d) := by
  change (compare sign sign).then ((compare a c).then (compare b d)) = _
  rw [compare_eq_iff_eq.2 rfl]
  rfl

/-- Negation turns the order round. -/
theorem compare_neg (a b : ℤ) : compare (-a) (-b) = (compare a b).swap := by
  simp only [compare, compareOfLessAndEq]
  split_ifs <;> first | rfl | omega

/-- Numbers are compared as their ranks are. -/
theorem compare_eq (u v : UnpackedFloat) :
    u.compare v = (rank? u).bind fun r => (rank? v).map fun s => compare r s := by
  have hcast : ∀ m n : ℕ, compare (m : ℤ) n = compare m n := fun m n => by
    simp only [compare, compareOfLessAndEq, Nat.cast_lt, Nat.cast_inj]
  -- Ranks that differ in the first place are closed terms there, so these cases compute.
  rcases u with (_ | _) | _ | (_ | _) | ⟨_ | _, m, e, _⟩ <;>
    rcases v with (_ | _) | _ | (_ | _) | ⟨_ | _, n, f, _⟩ <;> try rfl
  case finite.negative.finite.negative =>
    simp only [UnpackedFloat.compare, rank?, Option.bind_some, Option.map_some, compare_rank,
      compare_neg, hcast, Ordering.swap_then]
  case finite.positive.finite.positive =>
    simp only [UnpackedFloat.compare, rank?, Option.bind_some, Option.map_some, compare_rank,
      hcast]

variable {x y z : Float}

/-- One double is less than another if both have ranks, and the rank of the first is less. -/
theorem lt_iff : x < y ↔
    ∃ r ∈ rank? x.toModel.unpack, ∃ s ∈ rank? y.toModel.unpack, r < s := by
  change decide (x.toModel.unpack.lt y.toModel.unpack) = true ↔ _
  rw [decide_eq_true_iff, UnpackedFloat.lt, compare_eq, beq_iff_eq]
  simp only [Option.bind_eq_some_iff, Option.map_eq_some_iff, compare_lt_iff_lt, Option.mem_def]

/-- Doubles are equal if they have the same rank. -/
theorem beq_iff : (x == y) ↔ ∃ r ∈ rank? x.toModel.unpack, r ∈ rank? y.toModel.unpack := by
  change x.toModel.unpack.beq y.toModel.unpack = true ↔ _
  rw [UnpackedFloat.beq, compare_eq, beq_iff_eq]
  simp only [Option.bind_eq_some_iff, Option.map_eq_some_iff, compare_eq_iff_eq,
    exists_eq_right', Option.mem_def]

/-- The order of doubles is transitive: what is not a number is never between. -/
theorem lt_trans (hxy : x < y) (hyz : y < z) : x < z := by
  obtain ⟨r, hr, s, hs, hrs⟩ := lt_iff.1 hxy
  obtain ⟨s', hs', t, ht, hst⟩ := lt_iff.1 hyz
  obtain rfl := Option.mem_unique hs hs'
  exact lt_iff.2 ⟨r, hr, t, ht, hrs.trans hst⟩

/-- An equal double may stand for the greater one, also where the sign of a zero tells them
    apart. -/
theorem lt_of_lt_of_beq (hxy : x < y) (hzy : z == y) : x < z := by
  obtain ⟨r, hr, s, hs, hrs⟩ := lt_iff.1 hxy
  obtain ⟨s', ht, hs'⟩ := beq_iff.1 hzy
  obtain rfl := Option.mem_unique hs hs'
  exact lt_iff.2 ⟨r, hr, s, ht, hrs⟩

/-- No double is less than itself. -/
theorem lt_irrefl (x : Float) : ¬ x < x := fun h => by
  obtain ⟨r, hr, s, hs, hrs⟩ := lt_iff.1 h
  obtain rfl := Option.mem_unique hr hs
  exact hrs.false

end Scoring.Double
