import Scoring.Proofs.Finite

/-!
# Whole numbers

A double has a mantissa of 53 bits, so that it stands for every whole number below
`2 ^ 53` exactly (`Double.value?_ofNat`). Such a number has one double, which a product
with a power of two only brings to another exponent before it is rounded
(`Double.round_mul_pow`). Hence counting up is exact (`Double.ofNat_add_one`), and counts
compare as numbers do (`Double.ofNat_lt_ofNat`).

A product with one is exact for every double, as a mantissa and an exponent that have been
unpacked are rounded to themselves (`Double.one_mul`).
-/

namespace Scoring.Double

open Float.Model UnpackedFloat

/-! ### Rounding what is exact -/

/-- Bits that are zeros are shifted out without a trace. -/
theorem shiftRight_mul_pow (m n : Nat) :
    (⟨m * 2 ^ n, false, false⟩ : ExtendedMantissa) >>> n = ⟨m, false, false⟩ := by
  induction n generalizing m with
  | zero => rw [Nat.pow_zero, Nat.mul_one]; rfl
  | succ n ih =>
    have hshift : (⟨m * 2 ^ (n + 1), false, false⟩ : ExtendedMantissa) >>> (n + 1) =
        ((⟨m * 2 * 2 ^ n, false, false⟩ : ExtendedMantissa) >>> n).shiftRightOne := by
      rw [Nat.pow_succ', ← Nat.mul_assoc]
      rfl
    rw [hshift, ih, ExtendedMantissa.shiftRightOne]
    simp

theorem log2_mul_pow {m : Nat} (hm : 0 < m) (n : Nat) : (m * 2 ^ n).log2 = m.log2 + n := by
  have hlog := (Nat.log2_eq_iff hm.ne').1 rfl
  rw [Nat.log2_eq_iff (Nat.mul_pos hm (Nat.two_pow_pos n)).ne', Nat.pow_add]
  refine ⟨Nat.mul_le_mul_right _ hlog.1, ?_⟩
  rw [Nat.add_right_comm, Nat.pow_add]
  exact Nat.mul_lt_mul_of_pos_right hlog.2 (Nat.two_pow_pos n)

section

variable {m n : Nat} {e : Int} {sign : Sign}

/-- A mantissa and an exponent are those of a double: rounding has nothing to shift. -/
def Canonical (m : Nat) (e : Int) : Prop :=
  Format.binary64.targetExponent (totalExponent m e) = e

/-- A mantissa of 53 bits is canonical with every exponent that a double can have. -/
theorem canonical_of_log2_eq (hm : m.log2 = 52) (he : minExponent ≤ e) : Canonical m e := by
  rw [Canonical, targetExponent_eq, hm]
  push_cast
  omega

/-- A shorter mantissa is canonical with the least exponent only: the number is subnormal. -/
theorem canonical_minExponent (hm : m < 2 ^ 52) : Canonical m minExponent := by
  have hlog : m.log2 < 52 := by
    by_cases hzero : m = 0
    · rw [hzero]
      decide
    · exact (Nat.log2_lt hzero).2 hm
  rw [Canonical, targetExponent_eq]
  omega

theorem Canonical.shiftToTargetExponent_mul_pow (h : Canonical m e) (hpos : 0 < m) (n : Nat) :
    shiftToTargetExponent Format.binary64 (m * 2 ^ n) (e - n) .exact = (⟨m, false, false⟩, e) := by
  have htarget : Format.binary64.targetExponent (totalExponent (m * 2 ^ n) (e - n)) = e := by
    rw [Canonical, targetExponent_eq] at h
    rw [targetExponent_eq, log2_mul_pow hpos]
    push_cast
    omega
  rw [shiftToTargetExponent, htarget, shiftToExponent]
  have hshift : (e - (e - n)).toNat = n := by omega
  simp only [hshift, ExtendedMantissa.ofMantissaAndAccuracy, shiftRight_mul_pow]
  rw [Int.sub_add_cancel]

/-- A canonical number is rounded to itself, however small the exponent that it is given. -/
theorem Canonical.roundWithAccuracy_mul_pow (h : Canonical m e) (hpos : 0 < m) (n : Nat) :
    roundWithAccuracy Format.binary64 sign (m * 2 ^ n) (e - n) .exact = .finite sign m e hpos := by
  have hagain := h.shiftToTargetExponent_mul_pow hpos 0
  rw [Nat.pow_zero, Nat.mul_one, Int.natCast_zero, Int.sub_zero] at hagain
  rw [roundWithAccuracy, h.shiftToTargetExponent_mul_pow hpos]
  have hrounded : (⟨m, false, false⟩ : ExtendedMantissa).roundedMantissa = m := rfl
  simp only [hrounded, hagain]
  rw [dif_neg hpos.ne']

/-! ### Packing -/

/-- The bit before those of the mantissa is set. -/
theorem toNat_one_append (b : BitVec 52) : (1#1 ++ b).toNat = 2 ^ 52 + b.toNat := by
  rw [BitVec.toNat_append, ← Nat.shiftLeft_add_eq_or_of_lt b.isLt, Nat.shiftLeft_eq]
  rfl

/-- What is unpacked is canonical. -/
theorem canonical_of_unpack_eq {b : BitVec Format.binary64.numBits} {hm : 0 < m}
    (h : UnpackedFloat.unpack Format.binary64 b = .finite sign m e hm) : Canonical m e := by
  have hbias : Format.binary64.exponentBias = 1023 := rfl
  have hlt : (unpackMantissa b).toNat < 2 ^ 52 := (unpackMantissa b).isLt
  simp only [UnpackedFloat.unpack, hbias] at h
  split at h
  · -- Infinities and what is not a number have no mantissa.
    split at h <;> cases h
  split at h
  · -- An exponent of zeros: the number is zero or subnormal.
    rename_i hzero
    split at h
    · cases h
    · cases h
      rw [hzero]
      exact canonical_minExponent hlt
  · -- A normal number has one more bit than the mantissa that is stored.
    rename_i hne
    cases h
    have hpos : (unpackExponent b).toNat ≠ 0 := fun h => hne (BitVec.eq_of_toNat_eq h)
    have hmantissa : (1#1 ++ unpackMantissa b).toNat = 2 ^ 52 + (unpackMantissa b).toNat :=
      toNat_one_append _
    refine canonical_of_log2_eq ?_ ?_
    · rw [hmantissa, Nat.log2_eq_iff (by omega)]
      omega
    · rw [minExponent]
      push_cast
      omega

/-- A number with a mantissa of 53 bits is not changed by packing. -/
theorem unpack_pack_normal (hm : m.log2 = 52) (hpos : 0 < m) (hmin : minExponent ≤ e)
    (hmax : e ≤ maxExponent) :
    (Float.Model.pack (.finite sign m e hpos)).unpack = .finite sign m e hpos := by
  rw [minExponent] at hmin
  rw [maxExponent] at hmax
  obtain ⟨hlow, hhigh⟩ := (Nat.log2_eq_iff hpos.ne').1 hm
  have hbias : Format.binary64.exponentBias = 1023 := rfl
  generalize hbiased : (e + 1023 + 52).toNat = biased
  have htoNat : (BitVec.ofNat 11 biased).toNat = biased := by
    rw [BitVec.toNat_ofNat, Nat.mod_eq_of_lt (by omega)]
  -- The exponent is neither of the two that are kept for numbers of another kind.
  have hzero : BitVec.ofNat 11 biased ≠ 0#11 := fun h => by
    have h := congrArg BitVec.toNat h
    rw [htoNat] at h
    change biased = 0 at h
    omega
  have hones : BitVec.ofNat 11 biased ≠ -1#11 := fun h => by
    have h := congrArg BitVec.toNat h
    rw [htoNat] at h
    change biased = 2047 at h
    omega
  have hmantissa : (1#1 ++ BitVec.ofNat 52 m).toNat = m := by
    rw [toNat_one_append, BitVec.toNat_ofNat]
    omega
  have hbits : m.log2 + 1 = Format.binary64.mantissaBits := congrArg (· + 1) hm
  have hpack : UnpackedFloat.pack Format.binary64 (.finite sign m e hpos) =
      packComponents Format.binary64 sign (BitVec.ofNat 11 biased) (BitVec.ofNat 52 m) := by
    simp only [UnpackedFloat.pack, hbias]
    rw [if_neg (by push_cast; omega), if_pos hbits, ← hbiased]
    rfl
  change UnpackedFloat.unpack Format.binary64 (UnpackedFloat.pack Format.binary64 _) = _
  rw [hpack]
  simp only [UnpackedFloat.unpack, unpackMantissa_packComponents, unpackExponent_packComponents,
    unpackSign_packComponents, Sign.ofBitVec_toBitVec, hbias]
  rw [if_neg hones, if_neg hzero]
  simp only [hmantissa, htoNat]
  congr 1
  push_cast
  omega

end

/-! ### Whole numbers -/

/-- The whole number `n` of at most 53 bits, with a mantissa of 53 bits. -/
def whole (n : Nat) (hn : 0 < n) : UnpackedFloat :=
  .finite .positive (n * 2 ^ (52 - n.log2)) (n.log2 - 52) (Nat.mul_pos hn (Nat.two_pow_pos _))

section

variable {m n : Nat} {hm : 0 < m} {hn : 0 < n}

theorem log2_whole (hn : 0 < n) (hlt : n < 2 ^ 53) : (n * 2 ^ (52 - n.log2)).log2 = 52 := by
  have hlog : n.log2 < 53 := (Nat.log2_lt hn.ne').2 hlt
  rw [log2_mul_pow hn]
  omega

theorem canonical_whole (hn : 0 < n) (hlt : n < 2 ^ 53) :
    Canonical (n * 2 ^ (52 - n.log2)) (n.log2 - 52) :=
  canonical_of_log2_eq (log2_whole hn hlt) (by rw [minExponent]; omega)

/-- A whole number is written with any exponent that leaves the mantissa whole. -/
theorem round_mul_pow (hn : 0 < n) (hlt : n < 2 ^ 53) (k : Nat) :
    UnpackedFloat.round Format.binary64 .positive (n * 2 ^ k) (-k) = whole n hn := by
  have hlog : n.log2 < 53 := (Nat.log2_lt hn.ne').2 hlt
  have htarget : Format.binary64.targetExponent (totalExponent (n * 2 ^ k) (-k)) = n.log2 - 52 := by
    rw [targetExponent_eq, log2_mul_pow hn, minExponent]
    push_cast
    omega
  have hshift : (-(k : Int) - (n.log2 - 52)).toNat = 52 - n.log2 - k := by omega
  -- Shifted to the left, the mantissa has its 53 bits, and as many zeros as are shifted out again.
  have hmantissa : (n * 2 ^ k) <<< (52 - n.log2 - k) =
      n * 2 ^ (52 - n.log2) * 2 ^ (k - (52 - n.log2)) := by
    rw [Nat.shiftLeft_eq, Nat.mul_assoc, Nat.mul_assoc, ← Nat.pow_add, ← Nat.pow_add]
    congr 2
    omega
  have hexponent : -(k : Int) - (52 - n.log2 - k : Nat) =
      (n.log2 - 52) - (k - (52 - n.log2) : Nat) := by omega
  simp only [UnpackedFloat.round, htarget, decreaseExponent, hshift, hmantissa, hexponent]
  exact (canonical_whole hn hlt).roundWithAccuracy_mul_pow _ _

theorem unpack_pack_whole (hlt : n < 2 ^ 53) :
    (Float.Model.pack (whole n hn)).unpack = whole n hn :=
  have hlog : n.log2 < 53 := (Nat.log2_lt hn.ne').2 hlt
  unpack_pack_normal (log2_whole hn hlt) _ (by rw [minExponent]; omega) (by rw [maxExponent]; omega)

/-- A word is converted to the double of its number. -/
theorem unpack_toFloat (hn : 0 < n) (hlt : n < 2 ^ 53) :
    n.toUInt64.toFloat.toModel.unpack = whole n hn := by
  have hword : n.toUInt64.toNat = n := by
    rw [Nat.toUInt64, UInt64.toNat_ofNat', Nat.mod_eq_of_lt (by omega)]
  have hnat : UnpackedFloat.ofUInt64 Format.binary64 n.toUInt64 = whole n hn := by
    rw [UnpackedFloat.ofUInt64, hword, UnpackedFloat.ofNat, UnpackedFloat.ofInt,
      UnpackedFloat.normalize, compare_gt_iff_gt.2 (by omega)]
    have h := round_mul_pow hn hlt 0
    simpa using h
  change (Float.Model.pack (UnpackedFloat.ofUInt64 Format.binary64 n.toUInt64)).unpack = _
  rw [hnat, unpack_pack_whole hlt]

theorem ofNat_eq_pack (hn : 0 < n) (hlt : n < 2 ^ 53) :
    Float.ofNat n = .ofModel (.pack (whole n hn)) := by
  -- The number is multiplied by one, the power of ten.
  have hone : (Float.ofBits 0x3FF0000000000000).toModel.unpack =
      .finite .positive (2 ^ 52) (-52) (Nat.two_pow_pos 52) := by rfl
  have hmul : UnpackedFloat.mul Format.binary64 (whole n hn)
      (.finite .positive (2 ^ 52) (-52) (Nat.two_pow_pos 52)) = whole n hn :=
    (canonical_whole hn hlt).roundWithAccuracy_mul_pow _ 52
  have hproduct : n.toUInt64.toFloat * Float.ofBits 0x3FF0000000000000 =
      .ofModel (.pack (UnpackedFloat.mul Format.binary64 n.toUInt64.toFloat.toModel.unpack
        (Float.ofBits 0x3FF0000000000000).toModel.unpack)) := rfl
  rw [unpack_toFloat hn hlt, hone, hmul] at hproduct
  change Float.ofScientific n false 0 = _
  rw [Float.ofScientific, dif_pos ⟨hlt, Nat.zero_le 22⟩]
  exact hproduct

theorem unpack_ofNat (hn : 0 < n) (hlt : n < 2 ^ 53) :
    (Float.ofNat n).toModel.unpack = whole n hn := by
  rw [ofNat_eq_pack hn hlt]
  exact unpack_pack_whole hlt

/-- Adding one to a whole number is exact below `2 ^ 53`. -/
theorem ofNat_add_one (hn : 0 < n) (hlt : n + 1 < 2 ^ 53) :
    Float.ofNat n + 1 = Float.ofNat (n + 1) := by
  have hlog : n.log2 < 53 := (Nat.log2_lt hn.ne').2 (by omega)
  have hone : (Float.ofNat 1).toModel.unpack = whole 1 Nat.one_pos :=
    unpack_ofNat Nat.one_pos (by decide)
  have hsum : UnpackedFloat.add Format.binary64 (whole n hn) (whole 1 Nat.one_pos) =
      whole (n + 1) n.succ_pos := by
    have hmin : min ((n.log2 : Int) - 52) (((1 : Nat).log2 : Int) - 52) = -52 := by
      have : (1 : Nat).log2 = 0 := by decide
      omega
    -- With the exponent of one, the mantissas are the numbers in units of `2 ^ -52`.
    have hleft : (n * 2 ^ (52 - n.log2)) <<< ((n.log2 : Int) - 52 - -52).toNat = n * 2 ^ 52 := by
      rw [Nat.shiftLeft_eq, Nat.mul_assoc, ← Nat.pow_add]
      congr 2
      omega
    have hright : (1 * 2 ^ (52 - (1 : Nat).log2)) <<< (((1 : Nat).log2 : Int) - 52 - -52).toNat =
        2 ^ 52 := by decide
    have hmantissa : ((n * 2 ^ 52 : Nat) : Int) + ((2 ^ 52 : Nat) : Int) =
        (((n + 1) * 2 ^ 52 : Nat) : Int) := by
      push_cast
      ring
    have hgt : compare (((n + 1) * 2 ^ 52 : Nat) : Int) 0 = .gt :=
      compare_gt_iff_gt.2 (by positivity)
    simp only [whole, UnpackedFloat.add, decreaseExponent, hmin, hleft, hright, Sign.apply,
      hmantissa, UnpackedFloat.normalize, hgt, Int.toNat_natCast]
    exact round_mul_pow n.succ_pos hlt 52
  have h : Float.ofNat n + 1 = .ofModel (.pack (UnpackedFloat.add Format.binary64
      (Float.ofNat n).toModel.unpack (Float.ofNat 1).toModel.unpack)) := rfl
  rw [h, unpack_ofNat hn (by omega), hone, hsum, ofNat_eq_pack n.succ_pos hlt]

/-- The order of whole numbers is that of their doubles. -/
theorem ofNat_lt_ofNat (hm : 0 < m) (hn : 0 < n) (hmlt : m < 2 ^ 53) (hnlt : n < 2 ^ 53) :
    Float.ofNat m < Float.ofNat n ↔ m < n := by
  have h : Float.ofNat m < Float.ofNat n ↔
      (Float.ofNat m).toModel.unpack.lt (Float.ofNat n).toModel.unpack = true := by
    change decide _ = true ↔ _
    rw [decide_eq_true_iff]
    rfl
  rw [h, unpack_ofNat hm hmlt, unpack_ofNat hn hnlt]
  simp only [whole, UnpackedFloat.lt, UnpackedFloat.compare, beq_iff_eq, Option.some.injEq]
  -- The exponents decide, and of numbers with equal exponents the mantissas.
  rcases Nat.lt_trichotomy m.log2 n.log2 with hlog | hlog | hlog
  · have hlt : m < n := Nat.lt_of_lt_of_le ((Nat.log2_lt hm.ne').1 hlog) (Nat.log2_self_le hn.ne')
    have hexponent : compare ((m.log2 : Int) - 52) (n.log2 - 52) = .lt :=
      compare_lt_iff_lt.2 (by omega)
    simp [hexponent, hlt]
  · have hmantissa : compare (m * 2 ^ (52 - n.log2)) (n * 2 ^ (52 - n.log2)) = .lt ↔ m < n := by
      rw [compare_lt_iff_lt]
      exact Nat.mul_lt_mul_right (Nat.two_pow_pos _)
    simp [hlog, hmantissa]
  · have hlt : n < m := Nat.lt_of_lt_of_le ((Nat.log2_lt hn.ne').1 hlog) (Nat.log2_self_le hm.ne')
    have hexponent : compare ((m.log2 : Int) - 52) (n.log2 - 52) = .gt :=
      compare_gt_iff_gt.2 (by omega)
    simp [hexponent, Nat.not_lt.2 hlt.le]

/-- The number that a double stands for, if it is finite. -/
def value? (x : Float) : Option ℚ :=
  match x.toModel.unpack with
  | .zero _ => some 0
  | .finite sign mantissa exponent _ => some (sign.apply mantissa * 2 ^ exponent)
  | .infinity _ | .notANumber => none

theorem value_whole (hn : 0 < n) (hlt : n < 2 ^ 53) :
    ((n * 2 ^ (52 - n.log2) : Nat) : ℚ) * 2 ^ ((n.log2 : Int) - 52) = n := by
  have hlog : n.log2 < 53 := (Nat.log2_lt hn.ne').2 hlt
  have hexponent : (n.log2 : Int) - 52 = -((52 - n.log2 : Nat) : Int) := by omega
  rw [hexponent, zpow_neg, zpow_natCast]
  push_cast
  rw [mul_inv_cancel_right₀ (by positivity)]

/-- Below `2 ^ 53`, the double of a whole number stands for this number. -/
theorem value?_ofNat (hn : 0 < n) (hlt : n < 2 ^ 53) : value? (Float.ofNat n) = some (n : ℚ) := by
  rw [value?, unpack_ofNat hn hlt]
  simp only [whole, Sign.apply, Int.cast_natCast, value_whole hn hlt]

end

/-! ### Products with one -/

/-- One is the identity of multiplication, also for infinities and for what is not a number. -/
theorem one_mul (x : Float) : 1 * x = x := by
  have hone : (Float.ofNat 1).toModel.unpack = .finite .positive (2 ^ 52) (-52) _ :=
    unpack_ofNat Nat.one_pos (by decide)
  have hmul : UnpackedFloat.mul Format.binary64
      (.finite .positive (2 ^ 52) (-52) (Nat.two_pow_pos 52)) x.toModel.unpack =
        x.toModel.unpack := by
    cases hx : x.toModel.unpack with
    | notANumber => rfl
    | infinity sign => cases sign <;> rfl
    | zero sign => cases sign <;> rfl
    | finite sign m e hm =>
      have hsign : Sign.positive * sign = sign := by cases sign <;> rfl
      -- The product is the mantissa with 52 more zeros, and these are shifted out again.
      rw [UnpackedFloat.mul, hsign, Nat.mul_comm, Int.add_comm]
      exact (canonical_of_unpack_eq hx).roundWithAccuracy_mul_pow hm 52
  have h : 1 * x = .ofModel (.pack (UnpackedFloat.mul Format.binary64
      (Float.ofNat 1).toModel.unpack x.toModel.unpack)) := rfl
  rw [h, hone, hmul]
  exact Float.ofBits_toBits x

end Scoring.Double
