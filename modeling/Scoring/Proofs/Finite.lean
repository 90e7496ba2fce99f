import Mathlib

/-!
# Finite numbers

A double is unpacked into a mantissa and an exponent, and packed again after each
operation. What is packed is finite unless its exponent exceeds the greatest one of
doubles (`Double.Fits.unpack_pack`). Rounding raises the exponent by little more than
the bits of the mantissa (`Double.fits_roundWithAccuracy`), and so a number that is made
from small ones by an operation or two does not overflow. In particular an integer of 64
bits stands for a finite double (`Double.isFinite_ofInt`).
-/

namespace Scoring.Double

open Float.Model UnpackedFloat

/-- A finite number, the bits of whose mantissa and the exponent of which are bounded. -/
inductive Fits (bits : Nat) (bound : Int) : UnpackedFloat → Prop
  | zero (sign : Sign) : Fits bits bound (.zero sign)
  | finite {sign : Sign} {mantissa : Nat} {exponent : Int} {pos : 0 < mantissa} :
      mantissa < 2 ^ bits → exponent ≤ bound → Fits bits bound (.finite sign mantissa exponent pos)

/-- The greatest exponent of a double, beside a mantissa of 53 bits. -/
def maxExponent : Int := 971

/-- The least exponent of a double. -/
def minExponent : Int := -1074

/-- The exponent that a double has for a number, given any mantissa and exponent of it. -/
theorem targetExponent_eq (mantissa : Nat) (exponent : Int) :
    Format.binary64.targetExponent (totalExponent mantissa exponent) =
      max ((mantissa.log2 : Int) + 1 + exponent - 53) minExponent := rfl

variable {bits bits' : Nat} {bound bound' : Int} {u v : UnpackedFloat}

/-- What fits is finite. -/
theorem Fits.isFinite (h : Fits bits bound u) : u.isFinite = true := by
  cases h <;> rfl

/-- The sign plays no part in what fits. -/
theorem Fits.neg (h : Fits bits bound u) : Fits bits bound u.neg := by
  cases h with
  | zero => exact .zero _
  | finite hmantissa hexponent => exact .finite hmantissa hexponent

/-- What fits some bounds fits greater ones. -/
theorem Fits.mono (h : Fits bits bound u) (hbits : bits ≤ bits') (hbound : bound ≤ bound') :
    Fits bits' bound' u := by
  cases h with
  | zero => exact .zero _
  | finite hmantissa hexponent =>
    exact .finite (Nat.lt_of_lt_of_le hmantissa (Nat.pow_le_pow_right (by decide) hbits))
      (Int.le_trans hexponent hbound)

/-! ### Packing -/

/-- Bits that are not all ones stand for less than the greatest number. -/
theorem toNat_lt_of_ne_allOnes {w : Nat} {b : BitVec w} (h : b ≠ -1#w) : b.toNat + 1 < 2 ^ w := by
  refine Nat.lt_of_le_of_ne b.isLt fun heq => h (BitVec.eq_of_toNat_eq ?_)
  rw [BitVec.neg_one_eq_allOnes, BitVec.toNat_allOnes]
  omega

/-- Bits that are not all ones stand for an exponent, counted from below the least. -/
theorem fits_unpack {b : BitVec Format.binary64.numBits} (hfinite : unpackExponent b ≠ -1#_)
    (hmin : minExponent ≤ bound) (hbound : (unpackExponent b).toNat - 1075 ≤ bound) :
    Fits 53 bound (UnpackedFloat.unpack Format.binary64 b) := by
  simp only [UnpackedFloat.unpack, if_neg hfinite]
  split
  · -- A zero or a subnormal number, with the least exponent.
    rename_i hzero
    split
    · exact .zero _
    · rw [hzero]
      exact .finite (Nat.lt_trans (unpackMantissa b).isLt (by decide)) hmin
  · exact .finite (1#1 ++ unpackMantissa b).isLt hbound

/-- What is finite when unpacked has at most the greatest exponent. -/
theorem fits_unpack_of_isFinite {b : BitVec Format.binary64.numBits}
    (h : (UnpackedFloat.unpack Format.binary64 b).isFinite = true) :
    Fits 53 maxExponent (UnpackedFloat.unpack Format.binary64 b) := by
  have hfinite : unpackExponent b ≠ -1#_ := fun hones => by
    simp only [UnpackedFloat.unpack, if_pos hones] at h
    split at h <;> cases h
  have hlt : (unpackExponent b).toNat + 1 < 2 ^ 11 := toNat_lt_of_ne_allOnes hfinite
  refine fits_unpack hfinite (by decide) ?_
  rw [maxExponent]
  omega

/-- Components with a small enough exponent are unpacked to a number that fits. -/
theorem fits_unpack_packComponents (sign : Sign) (mantissa : BitVec 52) {n : Nat}
    (hmin : minExponent ≤ bound) (hn : n + 1 < 2 ^ 11) (hbound : (n : Int) - 1075 ≤ bound) :
    Fits 53 bound (UnpackedFloat.unpack Format.binary64
      (packComponents Format.binary64 sign (BitVec.ofNat 11 n) mantissa)) := by
  have htoNat : (BitVec.ofNat 11 n).toNat = n := by
    rw [BitVec.toNat_ofNat, Nat.mod_eq_of_lt (by omega)]
  refine fits_unpack ?_ hmin ?_ <;> rw [unpackExponent_packComponents]
  · intro hones
    have hn' := congrArg BitVec.toNat hones
    rw [htoNat, BitVec.neg_one_eq_allOnes, BitVec.toNat_allOnes] at hn'
    omega
  · rwa [htoNat]

/-- What is unpacked again after packing has no greater exponent, as long as doubles have
    exponents as great. -/
theorem Fits.unpack_pack (h : Fits bits bound u) (hmin : minExponent ≤ bound)
    (hmax : bound ≤ maxExponent) : Fits 53 bound (Float.Model.pack u).unpack := by
  have hzero : ∀ sign mantissa, Fits 53 bound (UnpackedFloat.unpack Format.binary64
      (packComponents Format.binary64 sign 0#_ mantissa)) := fun sign mantissa =>
    fits_unpack_packComponents sign mantissa hmin (by decide)
      (Int.le_trans (by decide : (0 : Int) - 1075 ≤ minExponent) hmin)
  cases h with
  | zero sign => exact hzero sign 0
  | @finite sign mantissa exponent _ _ hexponent =>
    rw [minExponent] at hmin
    rw [maxExponent] at hmax
    have hbias : Format.binary64.exponentBias = 1023 := rfl
    -- The exponent is within the bounds of a double, so that packing does not make it
    -- infinite.
    change Fits 53 bound (UnpackedFloat.unpack Format.binary64 (UnpackedFloat.pack _ _))
    simp only [UnpackedFloat.pack, hbias]
    rw [if_neg (by omega)]
    split
    · exact fits_unpack_packComponents _ _ hmin (by omega) (by omega)
    · exact hzero sign _

/-! ### Rounding -/

/-- A mantissa gets no greater by a shift to the right. -/
theorem mantissa_shiftRight_le (em : ExtendedMantissa) (n : Nat) :
    (em >>> n).mantissa ≤ em.mantissa := by
  induction n with
  | zero => exact Nat.le_refl _
  | succ n ih => exact Nat.le_trans (Nat.div_le_self (em >>> n).mantissa 2) ih

/-- A mantissa stays as it is when its accuracy is put beside it. -/
theorem mantissa_ofMantissaAndAccuracy (mantissa : Nat) (accuracy : Accuracy) :
    (ExtendedMantissa.ofMantissaAndAccuracy mantissa accuracy).mantissa = mantissa := by
  rcases accuracy with _ | _ | _ | _ <;> rfl

/-- Rounding adds one to a mantissa at the most. -/
theorem roundToNearestEven_le (mantissa : Nat) (accuracy : Accuracy) :
    accuracy.roundToNearestEven mantissa ≤ mantissa + 1 := by
  rcases accuracy with _ | _ | _ | _ <;> simp only [Accuracy.roundToNearestEven] <;> omega

section

variable {mantissa : Nat} {exponent : Int} {accuracy : Accuracy}

/-- A shift to the target exponent raises the exponent by no more than the bits of the
    mantissa, which gets no greater. -/
theorem shiftToTargetExponent_le (accuracy : Accuracy) (hmantissa : mantissa < 2 ^ bits)
    (hbits : 0 < bits) (hexponent : exponent ≤ bound) (hmin : minExponent ≤ bound) :
    let shifted := shiftToTargetExponent Format.binary64 mantissa exponent accuracy
    shifted.1.mantissa ≤ mantissa ∧ shifted.2 ≤ bound + bits := by
  have hlog : mantissa.log2 < bits := by
    by_cases hzero : mantissa = 0
    · rwa [hzero]
    · exact (Nat.log2_lt hzero).2 hmantissa
  simp only [shiftToTargetExponent, shiftToExponent, targetExponent_eq]
  refine ⟨?_, by omega⟩
  refine Nat.le_trans (mantissa_shiftRight_le _ _) ?_
  exact Nat.le_of_eq (mantissa_ofMantissaAndAccuracy mantissa accuracy)

/-- Rounding needs one more bit for the mantissa, and twice the bits for the exponent: it shifts
    the mantissa twice. -/
theorem fits_roundWithAccuracy (sign : Sign) (hmantissa : mantissa < 2 ^ bits) (hbits : 0 < bits)
    (hexponent : exponent ≤ bound) (hmin : minExponent ≤ bound) :
    Fits (bits + 1) (bound + 2 * bits + 1)
      (roundWithAccuracy Format.binary64 sign mantissa exponent accuracy) := by
  obtain ⟨hmantissa₁, hexponent₁⟩ :=
    shiftToTargetExponent_le accuracy hmantissa hbits hexponent hmin
  rw [roundWithAccuracy]
  generalize shiftToTargetExponent Format.binary64 mantissa exponent accuracy = shifted at *
  -- Rounding up may carry into one more bit, and then there is a second shift.
  have hrounded : shifted.1.roundedMantissa < 2 ^ (bits + 1) := by
    have hle := roundToNearestEven_le shifted.1.mantissa shifted.1.accuracy
    rw [ExtendedMantissa.roundedMantissa, Nat.pow_succ]
    omega
  obtain ⟨hmantissa₂, hexponent₂⟩ := shiftToTargetExponent_le .exact hrounded
    (Nat.succ_pos bits) hexponent₁ (by omega)
  simp only
  split
  · exact .zero _
  · exact .finite (Nat.lt_of_le_of_lt hmantissa₂ hrounded) (by push_cast at hexponent₂; omega)

/-- An integer is rounded to a number that fits, after up to 53 bits have been put below its
    own. -/
theorem fits_round (sign : Sign) (hmantissa : mantissa < 2 ^ bits) :
    Fits (bits + 54) (2 * bits + 107) (UnpackedFloat.round Format.binary64 sign mantissa 0) := by
  simp only [UnpackedFloat.round, decreaseExponent, targetExponent_eq]
  generalize hshift : (0 - max ((mantissa.log2 : Int) + 1 + 0 - 53) minExponent).toNat = shift
  have hshifted : mantissa <<< shift < 2 ^ (bits + 53) :=
    calc mantissa <<< shift
        = mantissa * 2 ^ shift := Nat.shiftLeft_eq _ _
      _ < 2 ^ bits * 2 ^ shift := Nat.mul_lt_mul_of_pos_right hmantissa (Nat.two_pow_pos _)
      _ ≤ 2 ^ bits * 2 ^ 53 :=
        Nat.mul_le_mul_left _ (Nat.pow_le_pow_right (by decide) (by omega))
      _ = 2 ^ (bits + 53) := (Nat.pow_add _ _ _).symm
  have hexponent : (0 : Int) - shift ≤ 0 := by omega
  exact (fits_roundWithAccuracy sign hshifted (by omega) hexponent (by decide)).mono
    (by omega) (by omega)

end

/-- A product has the bits of both mantissas and the sum of the exponents, before it is rounded. -/
theorem Fits.mul (hu : Fits bits bound u) (hv : Fits bits' bound' v) (hbits : 0 < bits + bits')
    (hmin : minExponent ≤ bound + bound') :
    Fits (bits + bits' + 1) (bound + bound' + 2 * (bits + bits' : Nat) + 1)
      (UnpackedFloat.mul Format.binary64 u v) := by
  cases hu with
  -- A zero makes the product one.
  | zero => cases hv <;> exact .zero _
  | @finite _ mantissa _ _ hmantissa hexponent =>
    cases hv with
    | zero => exact .zero _
    | @finite _ mantissa' _ _ hmantissa' hexponent' =>
      have hproduct : mantissa * mantissa' < 2 ^ (bits + bits') := by
        rw [Nat.pow_add]
        exact Nat.mul_lt_mul'' hmantissa hmantissa'
      exact fits_roundWithAccuracy _ hproduct hbits (Int.add_le_add hexponent hexponent') hmin

/-! ### Doubles -/

/-- What fits in a double is finite as a double. -/
theorem isFinite_pack (h : Fits bits bound u) (hmin : minExponent ≤ bound)
    (hmax : bound ≤ maxExponent) : (Float.ofModel (.pack u)).isFinite = true :=
  (h.unpack_pack hmin hmax).isFinite

/-- The negation of a finite double is finite. -/
theorem isFinite_neg {x : Float} (h : x.isFinite = true) : (-x).isFinite = true :=
  have hfits : Fits 53 maxExponent x.toModel.unpack := fits_unpack_of_isFinite h
  isFinite_pack hfits.neg (by decide) (by decide)

/-- An unsigned integer of 64 bits is far below the greatest double. -/
theorem fits_ofUInt64 (n : UInt64) : Fits 53 235 (Float.Model.ofUInt64 n).unpack := by
  have hround : Fits 118 235 (UnpackedFloat.ofUInt64 Format.binary64 n) := by
    have hn : n.toNat < 2 ^ 64 := n.toNat_lt
    simp only [UnpackedFloat.ofUInt64, UnpackedFloat.ofNat, UnpackedFloat.ofInt,
      UnpackedFloat.normalize]
    split
    · exact fits_round .negative (show (-(n.toNat : Int)).toNat < 2 ^ 64 by omega)
    · exact .zero _
    · exact fits_round .positive (show (n.toNat : Int).toNat < 2 ^ 64 by omega)
  exact hround.unpack_pack (by decide) (by decide)

/-- One has the exponent `-52`, beside a mantissa of 53 bits. -/
theorem fits_one : Fits 53 (-52) (Float.ofBits 0x3FF0000000000000).toModel.unpack :=
  .finite (by decide) (by decide)

/-- A decimal of 64 bits without an exponent is far below the greatest double. -/
theorem fits_ofScientific {n : Nat} (hn : n < 2 ^ 64) :
    Fits 119 184 (UnpackedFloat.ofScientific Format.binary64 n 0) := by
  have hbits : Format.binary64.mantissaBits = 53 := rfl
  simp only [UnpackedFloat.ofScientific, hbits]
  split
  · exact .zero _
  · have hsmall : ¬ (0 : Int) > 2 ^ Format.binary64.exponentBits := by decide
    have hlarge : ¬ (0 : Int) < -(2 ^ Format.binary64.exponentBits + (n.log2 : Int)) := by omega
    rw [if_neg hsmall, if_neg hlarge, if_pos (Int.le_refl 0)]
    -- The significand is multiplied by one, the power of ten.
    have hsignificand : n <<< 53 < 2 ^ 117 := by
      rw [Nat.shiftLeft_eq]
      omega
    have hpower : 10 ^ (0 : Int).toNat < 2 ^ 1 := by decide
    exact Fits.mul (.finite hsignificand (Int.le_refl (-53))) (.finite hpower (Int.le_refl 0))
      (by decide) (by decide)

/-- A natural number of 64 bits stands for a finite double, whichever way it is converted. -/
theorem isFinite_ofNat {n : Nat} (hn : n < 2 ^ 64) : (Float.ofNat n).isFinite = true := by
  change (Float.ofScientific n false 0).isFinite = true
  -- Small numbers go by an integer of 64 bits, and others by a decimal.
  rw [Float.ofScientific]
  split
  · exact isFinite_pack ((fits_ofUInt64 _).mul fits_one (by decide) (by decide)) (by decide)
      (by decide)
  · exact isFinite_pack (fits_ofScientific hn) (by decide) (by decide)

/-- An integer of 64 bits, with a sign or without, stands for a finite number. -/
theorem isFinite_ofInt {n : Int} (hmin : Int64.minValue.toInt ≤ n) (hmax : n < UInt64.size) :
    (Float.ofInt n).isFinite = true := by
  have hmin : -2 ^ 63 ≤ n := hmin
  have hmax : n < 2 ^ 64 := hmax
  cases n with
  | ofNat n => exact isFinite_ofNat (by simp at hmax; omega)
  | negSucc n => exact isFinite_neg (isFinite_ofNat (by omega))

end Scoring.Double
