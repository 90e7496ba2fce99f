import Mathlib
import Scoring.Number.Decimal
import Scoring.Proofs.Whole
import Scoring.Proofs.Signs

/-!
# Exact decimals

Rounding leaves a number alone that a double stands for exactly, in whatever way the number is
written: as a mantissa with an exponent (`Double.roundWithAccuracy_eq`), as a product
(`Double.mul_eq`) or as a quotient (`Double.div_eq`). So a decimal is rounded to the double that
stands for it, if there is one (`Decimal.toFloat_eq`).
-/

namespace Scoring

namespace Double

open Float.Model UnpackedFloat

section

variable {m m₁ m₂ n : Nat} {e e₁ e₂ k : Int} {hm : 0 < m} {hm₁ : 0 < m₁} {hm₂ : 0 < m₂}

/-- A canonical mantissa has 53 bits at the most. -/
theorem Canonical.log2_le (h : Canonical m e) : m.log2 ≤ 52 := by
  rw [Canonical, targetExponent_eq] at h
  omega

/-- A canonical exponent is not below the least one. -/
theorem Canonical.minExponent_le (h : Canonical m e) : minExponent ≤ e := by
  rw [Canonical, targetExponent_eq] at h
  omega

/-- A canonical mantissa is less than `2 ^ 53`. -/
theorem Canonical.lt_two_pow (h : Canonical m e) : m < 2 ^ 53 := by
  by_cases hzero : m = 0
  · rw [hzero]
    decide
  · exact (Nat.log2_lt hzero).1 (Nat.lt_succ_of_le h.log2_le)

/-- A power of two is split at a smaller exponent. -/
theorem two_pow_toNat_sub_mul (he : k ≤ e) : (2 : ℚ) ^ (e - k).toNat * 2 ^ k = 2 ^ e := by
  rw [← zpow_natCast, Int.toNat_of_nonneg (by omega), ← zpow_add₀ (by norm_num)]
  congr 1
  omega

/-- The same number with a smaller exponent has a mantissa with more bits. -/
theorem eq_mul_pow_of_value_eq (he : k ≤ e) (h : (n : ℚ) * 2 ^ k = m * 2 ^ e) :
    n = m * 2 ^ (e - k).toNat := by
  rw [← two_pow_toNat_sub_mul he, ← mul_assoc] at h
  exact_mod_cast mul_right_cancel₀ (zpow_ne_zero k (by norm_num : (2 : ℚ) ≠ 0)) h

/-- Rounding leaves a number alone that a double stands for. -/
theorem roundWithAccuracy_eq {sign : Sign} (hc : Canonical m e) (he : k ≤ e)
    (h : (n : ℚ) * 2 ^ k = m * 2 ^ e) :
    roundWithAccuracy Format.binary64 sign n k .exact = .finite sign m e hm := by
  rw [eq_mul_pow_of_value_eq he h]
  generalize hshift : (e - k).toNat = shift
  obtain rfl : k = e - shift := by omega
  exact hc.roundWithAccuracy_mul_pow hm shift

/-- A number with a mantissa of more than 53 bits has a smaller exponent than the double for it. -/
theorem exponent_le_of_value_eq (hc : Canonical m e) (hn : 2 ^ 53 ≤ n)
    (h : (n : ℚ) * 2 ^ k = m * 2 ^ e) : k ≤ e := by
  by_contra hlt
  have hm := eq_mul_pow_of_value_eq (Int.le_of_lt (not_le.1 hlt)) h.symm
  have hle : n ≤ m := by
    rw [hm]
    exact Nat.le_mul_of_pos_right n (Nat.two_pow_pos _)
  exact absurd (Nat.lt_of_le_of_lt hle hc.lt_two_pow) (Nat.not_lt.2 hn)

/-- A product for which a double stands is that double. -/
theorem mul_eq (hc : Canonical m e) (hlarge : 2 ^ 53 ≤ m₁ * m₂)
    (h : (m₁ : ℚ) * 2 ^ e₁ * (m₂ * 2 ^ e₂) = m * 2 ^ e) :
    UnpackedFloat.mul Format.binary64 (.finite .positive m₁ e₁ hm₁)
      (.finite .positive m₂ e₂ hm₂) = .finite .positive m e hm := by
  have hvalue : ((m₁ * m₂ : Nat) : ℚ) * 2 ^ (e₁ + e₂) = m * 2 ^ e := by
    rw [← h, zpow_add₀ (by norm_num)]
    push_cast
    ring
  -- The product of the mantissas has more bits than a double, so its exponent is no greater.
  exact roundWithAccuracy_eq hc (exponent_le_of_value_eq hc hlarge hvalue) hvalue

/-- A number is at least the power of two for its first bit. -/
theorem two_pow_log2_le (hm : 0 < m) (e : Int) : (2 : ℚ) ^ (m.log2 + e) ≤ m * 2 ^ e := by
  have h : (2 : ℚ) ^ m.log2 ≤ m := by exact_mod_cast Nat.log2_self_le hm.ne'
  rw [zpow_add₀ (by norm_num), zpow_natCast]
  gcongr

/-- A number is less than the next power of two. -/
theorem lt_two_pow_log2 (m : Nat) (e : Int) : (m : ℚ) * 2 ^ e < 2 ^ (m.log2 + 1 + e) := by
  have h : (m : ℚ) < 2 ^ (m.log2 + 1) := by exact_mod_cast Nat.lt_log2_self
  rw [zpow_add₀ (by norm_num)]
  have hcast : (2 : ℚ) ^ ((m.log2 : Int) + 1) = 2 ^ (m.log2 + 1) := by exact_mod_cast rfl
  rw [hcast]
  gcongr

/-- A quotient for which a double stands is that double. -/
theorem div_eq (hc : Canonical m e) (h : (m₁ : ℚ) * 2 ^ e₁ = m * 2 ^ e * (m₂ * 2 ^ e₂)) :
    UnpackedFloat.div Format.binary64 (.finite .positive m₁ e₁ hm₁)
      (.finite .positive m₂ e₂ hm₂) = .finite .positive m e hm := by
  have hlog : (m₁.log2 : Int) + e₁ < m.log2 + 1 + e + (m₂.log2 + 1 + e₂) := by
    refine (zpow_lt_zpow_iff_right₀ (by norm_num : (1 : ℚ) < 2)).1 ?_
    calc (2 : ℚ) ^ (m₁.log2 + e₁)
        ≤ m₁ * 2 ^ e₁ := two_pow_log2_le hm₁ e₁
      _ = m * 2 ^ e * (m₂ * 2 ^ e₂) := h
      _ < 2 ^ (m.log2 + 1 + e) * 2 ^ (m₂.log2 + 1 + e₂) := by
        have hm := lt_two_pow_log2 m e
        have hm₂ := lt_two_pow_log2 m₂ e₂
        gcongr
      _ = 2 ^ (m.log2 + 1 + e + (m₂.log2 + 1 + e₂)) := (zpow_add₀ (by norm_num) _ _).symm
  -- The quotient is worked out to an exponent that is small enough for it.
  have hexponent : Format.binary64.targetExponent
      (totalExponent m₁ e₁ - totalExponent m₂ e₂) ≤ e := by
    rw [Canonical, Format.targetExponent] at hc
    rw [Format.targetExponent]
    simp only [totalExponent] at hc ⊢
    omega
  simp only [UnpackedFloat.div, divCore]
  generalize htarget : min (e₁ - e₂) (Format.binary64.targetExponent
    (totalExponent m₁ e₁ - totalExponent m₂ e₂)) = t
  have hquotient : m₁ <<< (e₁ - e₂ - t).toNat = m * 2 ^ (e - t).toNat * m₂ := by
    have hvalue : ((m * 2 ^ (e - t).toNat * m₂ : Nat) : ℚ) * 2 ^ (t + e₂) = m₁ * 2 ^ e₁ := by
      rw [h, zpow_add₀ (by norm_num), ← two_pow_toNat_sub_mul (show t ≤ e by omega)]
      push_cast
      ring
    rw [Nat.shiftLeft_eq, eq_mul_pow_of_value_eq (by omega) hvalue]
    congr 3
    omega
  rw [hquotient, Nat.mul_div_cancel _ hm₂, Nat.mul_mod_left]
  generalize hshift : (e - t).toNat = shift
  obtain rfl : t = e - shift := by omega
  exact hc.roundWithAccuracy_mul_pow hm shift

end

/-! ### Powers of ten -/

/-- Whether a positive number with a mantissa of 53 bits is `10 ^ i`. Only whole numbers are
    compared here, so that it can be worked out. -/
def isPowerOfTen (i : Nat) : UnpackedFloat → Bool
  | .finite .positive m k _ =>
    2 ^ 52 ≤ m && m * 2 ^ k.toNat = 10 ^ i * 2 ^ (-k).toNat
  | _ => false

/-- What is kept at hand for each exponent is the power of ten. -/
theorem isPowerOfTen_powersOfTen : ∀ i : Fin Float.exactlyRepresentablePowersOfTen.size,
    isPowerOfTen i Float.exactlyRepresentablePowersOfTen[i].toModel.unpack := by
  decide

/-- The powers of ten that are kept at hand are exact. -/
theorem exists_unpack_powerOfTen {i : Nat} (hi : i < Float.exactlyRepresentablePowersOfTen.size) :
    ∃ m k hm, Float.exactlyRepresentablePowersOfTen[i].toModel.unpack =
      .finite .positive m k hm ∧ 2 ^ 52 ≤ m ∧ (m : ℚ) * 2 ^ k = 10 ^ i := by
  have h := isPowerOfTen_powersOfTen ⟨i, hi⟩
  unfold isPowerOfTen at h
  split at h
  · rename_i m k hm hunpack
    simp only [Bool.and_eq_true, decide_eq_true_eq] at h
    obtain ⟨hlarge, hvalue⟩ := h
    refine ⟨m, k, hm, hunpack, hlarge, ?_⟩
    have hvalue : (m : ℚ) * 2 ^ k.toNat = 10 ^ i * 2 ^ (-k).toNat := by exact_mod_cast hvalue
    have hsplit : (2 : ℚ) ^ k = 2 ^ k.toNat / 2 ^ (-k).toNat := by
      rw [← zpow_natCast, ← zpow_natCast, ← zpow_sub₀ (by norm_num)]
      congr 1
      omega
    rw [hsplit, mul_div_assoc', hvalue, mul_div_cancel_right₀ _ (by positivity)]
  · cases h

/-! ### Scientific notation -/

section

variable {m n i : Nat} {e k : Int} {hm : 0 < m} {x : Float}

/-- What a double stands for is neither too great nor too small. -/
theorem two_pow_le_value (hc : Canonical m e) (hm : 0 < m) :
    (2 : ℚ) ^ (-1074 : Int) ≤ m * 2 ^ e := by
  have hone : (1 : ℚ) ≤ m := by exact_mod_cast hm
  calc (2 : ℚ) ^ (-1074 : Int)
      ≤ 2 ^ e := zpow_le_zpow_right₀ (by norm_num) hc.minExponent_le
    _ ≤ m * 2 ^ e := le_mul_of_one_le_left (by positivity) hone

/-- What a double stands for is less than `2 ^ 1024`. -/
theorem value_lt_two_pow (hc : Canonical m e) (hmax : e ≤ maxExponent) :
    (m : ℚ) * 2 ^ e < 2 ^ (1024 : Int) := by
  refine lt_of_lt_of_le (lt_two_pow_log2 m e) (zpow_le_zpow_right₀ (by norm_num) ?_)
  have hlog := hc.log2_le
  rw [maxExponent] at hmax
  omega

/-- A decimal for a positive number has a positive significand. -/
theorem pos_of_value_eq (hm : 0 < m) (h : (n : ℚ) * 10 ^ k = m * 2 ^ e) : 0 < n := by
  have hpos : 0 < (n : ℚ) * 10 ^ k := by
    rw [h]
    positivity
  exact_mod_cast pos_of_mul_pos_left hpos (by positivity)

/-- An exponent of ten with which a double is written is neither too great nor too small. -/
theorem bounds_of_value_eq (hc : Canonical m e) (hmax : e ≤ maxExponent) (hm : 0 < m)
    (h : (n : ℚ) * 10 ^ k = m * 2 ^ e) : -(2048 + (n.log2 : Int)) ≤ k ∧ k ≤ 2048 := by
  have hn : 0 < n := pos_of_value_eq hm h
  refine ⟨not_lt.1 fun hk => ?_, not_lt.1 fun hk => ?_⟩
  · have hbase : (10 : ℚ) ^ k ≤ 2 ^ k := by
      rw [← inv_le_inv₀ (by positivity) (by positivity), ← zpow_neg, ← zpow_neg]
      exact zpow_le_zpow_left₀ (by omega) (by norm_num) (by norm_num)
    refine absurd (two_pow_le_value hc hm) (not_le.2 ?_)
    calc (m : ℚ) * 2 ^ e
        = n * 10 ^ k := h.symm
      _ ≤ n * 2 ^ k := by gcongr
      _ < 2 ^ ((n.log2 : Int) + 1 + k) := lt_two_pow_log2 n k
      _ ≤ 2 ^ (-1074 : Int) := zpow_le_zpow_right₀ (by norm_num) (by omega)
  · have hone : (1 : ℚ) ≤ n := by exact_mod_cast hn
    refine absurd (value_lt_two_pow hc hmax) (not_lt.2 ?_)
    calc (2 : ℚ) ^ (1024 : Int)
        ≤ 2 ^ k := zpow_le_zpow_right₀ (by norm_num) (by omega)
      _ ≤ 10 ^ k := zpow_le_zpow_left₀ (by omega) (by norm_num) (by norm_num)
      _ ≤ n * 10 ^ k := le_mul_of_one_le_left (by positivity) hone
      _ = m * 2 ^ e := h

/-- A number in scientific notation for which a double stands is worked out to that double. -/
theorem unpackedOfScientific_eq (hc : Canonical m e) (hmax : e ≤ maxExponent)
    (h : (n : ℚ) * 10 ^ k = m * 2 ^ e) :
    UnpackedFloat.ofScientific Format.binary64 n k = .finite .positive m e hm := by
  have hn : 0 < n := pos_of_value_eq hm h
  -- The exponent is among those for which the number is worked out.
  obtain ⟨hsmall, hlarge⟩ := bounds_of_value_eq hc hmax hm h
  have hlarge : ¬ k > 2 ^ Format.binary64.exponentBits := not_lt.2 hlarge
  have hsmall : ¬ k < -(2 ^ Format.binary64.exponentBits + (n.log2 : Int)) := not_lt.2 hsmall
  rw [UnpackedFloat.ofScientific, dif_neg hn.ne', if_neg hlarge, if_neg hsmall]
  have hbits : Format.binary64.mantissaBits = 53 := rfl
  split
  · rename_i hk
    refine mul_eq hc ?_ ?_
    · rw [Nat.shiftLeft_eq, hbits, Nat.mul_right_comm]
      exact Nat.le_mul_of_pos_left _ (by positivity)
    · rw [← h, Nat.shiftLeft_eq, hbits, zpow_zero, mul_one, zpow_neg]
      push_cast
      rw [mul_inv_cancel_right₀ (by positivity), ← zpow_natCast, Int.toNat_of_nonneg hk]
  · rename_i hk
    refine div_eq hc ?_
    rw [← h, zpow_zero, mul_one, mul_one, mul_assoc]
    push_cast
    rw [← zpow_natCast, Int.toNat_of_nonneg (by omega), ← zpow_add₀ (by norm_num),
      Int.add_right_neg, zpow_zero, mul_one]

/-- A number in scientific notation for which a double stands is that double. Where there are few
    digits, a product or a quotient of two doubles is made, each of which stands for its number. -/
theorem ofScientific_eq (hx : x.toModel.unpack = .finite .positive m e hm) (negative : Bool)
    (h : (n : ℚ) * 10 ^ (if negative then -(i : Int) else i) = m * 2 ^ e) :
    Float.ofScientific n negative i = x := by
  obtain ⟨hc, hmax⟩ := canonical_of_unpack hx
  have hn : 0 < n := pos_of_value_eq hm h
  rw [Float.ofScientific, ← ofModel_pack_eq hx]
  split
  · rename_i hfew
    obtain ⟨hlt, hi⟩ := hfew
    have hsize : i < Float.exactlyRepresentablePowersOfTen.size := Nat.lt_succ_of_le hi
    obtain ⟨p, k, hp, hpower, hlarge, hvalue⟩ := exists_unpack_powerOfTen hsize
    have hwhole := value_whole hn hlt
    cases negative with
    | false =>
      have hmul : UnpackedFloat.mul Format.binary64 n.toUInt64.toFloat.toModel.unpack
          Float.exactlyRepresentablePowersOfTen[i].toModel.unpack = .finite .positive m e hm := by
        -- Both are doubles that stand for their numbers.
        rw [unpack_toFloat hn hlt, hpower, whole]
        refine mul_eq hc ?_ ?_
        · have hlow := Nat.log2_self_le (Nat.mul_pos hn (Nat.two_pow_pos (52 - n.log2))).ne'
          rw [log2_whole hn hlt] at hlow
          exact Nat.le_trans (by decide) (Nat.mul_le_mul hlow hlarge)
        · rw [hwhole, hvalue, ← h]
          simp
      rw [← hmul]
      rfl
    | true =>
      have hdiv : UnpackedFloat.div Format.binary64 n.toUInt64.toFloat.toModel.unpack
          Float.exactlyRepresentablePowersOfTen[i].toModel.unpack = .finite .positive m e hm := by
        rw [unpack_toFloat hn hlt, hpower, whole]
        refine div_eq hc ?_
        rw [hwhole, hvalue, ← h]
        simp
      rw [← hdiv]
      rfl
  · have hexponent : (if negative then Int.negOfNat i else Int.ofNat i) =
        if negative then -(i : Int) else i := by
      rw [Int.negOfNat_eq]
      rfl
    rw [← hexponent] at h
    rw [← unpackedOfScientific_eq hc hmax h]
    rfl

end

end Double

/-! ### Decimals -/

namespace Decimal

open Float.Model UnpackedFloat Double

/-- The number that a decimal stands for. -/
def value (d : Decimal) : ℚ := d.significand * 10 ^ d.exponent

/-- A number is less than the power of ten for its digits. -/
theorem lt_pow_digitCount (n : Nat) : n < 10 ^ digitCount n :=
  (Nat.length_toDigits_le_iff (by decide) Nat.length_toDigits_pos).1 (Nat.le_refl _)

/-- A number is at least the power of ten for its first digit. -/
theorem pow_digitCount_le {n : Nat} (hn : 0 < n) : 10 ^ (digitCount n - 1) ≤ n := by
  by_cases hone : digitCount n = 1
  · rw [hone]
    exact hn
  · have hpos : 0 < digitCount n := Nat.length_toDigits_pos
    have hmore : ¬ digitCount n ≤ digitCount n - 1 := by omega
    exact not_lt.1 fun hlt => hmore ((Nat.length_toDigits_le_iff (by decide) (by omega)).2 hlt)

variable {d : Decimal} {m : Nat} {e : Int} {hm : 0 < m} {x : Float}

/-- A decimal is less than the power of ten for its digits before the point. -/
theorem value_lt_pow (d : Decimal) :
    d.value < 10 ^ (digitCount d.significand + d.exponent : Int) := by
  have hlt : (d.significand : ℚ) < 10 ^ digitCount d.significand := by
    exact_mod_cast lt_pow_digitCount d.significand
  rw [value, zpow_add₀ (by norm_num), zpow_natCast]
  gcongr

/-- A decimal is at least the power of ten for its first digit. -/
theorem pow_le_value (hpos : 0 < d.significand) :
    10 ^ ((digitCount d.significand - 1 : Nat) + d.exponent : Int) ≤ d.value := by
  have hle : (10 : ℚ) ^ (digitCount d.significand - 1) ≤ d.significand := by
    exact_mod_cast pow_digitCount_le hpos
  rw [value, zpow_add₀ (by norm_num), zpow_natCast]
  gcongr

/-- A decimal for which a double stands is rounded to that double. -/
theorem toFloat_eq (hx : x.toModel.unpack = .finite .positive m e hm)
    (h : d.value = m * 2 ^ e) : d.toFloat = x := by
  obtain ⟨hc, hmax⟩ := canonical_of_unpack hx
  have hpos : 0 < d.significand := pos_of_value_eq hm h
  have hdigits : 0 < digitCount d.significand := Nat.length_toDigits_pos
  have hsmall : ¬ (digitCount d.significand + d.exponent : Int) < -323 := fun hwhole => by
    refine absurd (two_pow_le_value hc hm) (not_le.2 ?_)
    calc (m : ℚ) * 2 ^ e
        = d.value := h.symm
      _ < 10 ^ (digitCount d.significand + d.exponent : Int) := d.value_lt_pow
      _ ≤ 10 ^ (-324 : Int) := zpow_le_zpow_right₀ (by norm_num) (by omega)
      _ ≤ 2 ^ (-1074 : Int) := by
        rw [zpow_neg, zpow_neg]
        gcongr
        exact_mod_cast (by decide +kernel : 2 ^ 1074 ≤ 10 ^ 324)
  have hlarge : ¬ 309 < (digitCount d.significand + d.exponent : Int) := fun hwhole => by
    refine absurd (value_lt_two_pow hc hmax) (not_lt.2 ?_)
    calc (2 : ℚ) ^ (1024 : Int)
        ≤ 10 ^ (309 : Int) := by exact_mod_cast (by decide +kernel : 2 ^ 1024 ≤ 10 ^ 309)
      _ ≤ 10 ^ ((digitCount d.significand - 1 : Nat) + d.exponent : Int) :=
        zpow_le_zpow_right₀ (by norm_num) (by omega)
      _ ≤ d.value := pow_le_value hpos
      _ = m * 2 ^ e := h
  -- Neither so small that it is rounded to zero, nor so great that it is infinite.
  simp only [toFloat]
  rw [if_neg (by omega), if_neg hlarge]
  refine ofScientific_eq hx _ ?_
  have hexponent : (if decide (d.exponent < 0) then -(d.exponent.natAbs : Int)
      else d.exponent.natAbs) = d.exponent := by
    split <;> rename_i hsign <;> rw [decide_eq_true_iff] at hsign <;> omega
  rw [hexponent]
  exact h

end Decimal

end Scoring
