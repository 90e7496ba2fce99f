import Scoring.Number.Read
import Scoring.Proofs.Whole

/-!
# Signs

What a double is unpacked to is packed again without a loss (`Double.Unpacked.unpack_pack`): a
mantissa and an exponent that have been unpacked are those of a double, and so they are if the sign
is changed. Hence a number is its absolute value, with the sign put before it that its first bit
gives (`Double.abs_eq_self`, `Double.neg_abs_eq_self`).

A number differs from itself by zero if it is finite (`Double.sub_self`), and by what is not a
number otherwise (`Double.sub_self_of_not_isFinite`).
-/

namespace Scoring.Double

open Float.Model UnpackedFloat

/-- What doubles are unpacked to. -/
inductive Unpacked : UnpackedFloat → Prop
  | notANumber : Unpacked .notANumber
  | infinity (sign : Sign) : Unpacked (.infinity sign)
  | zero (sign : Sign) : Unpacked (.zero sign)
  | finite {sign : Sign} {m : Nat} {e : Int} {hm : 0 < m} : Canonical m e → e ≤ maxExponent →
      Unpacked (.finite sign m e hm)

variable {u : UnpackedFloat} {x y : Float}

/-- A finite double is unpacked to a canonical mantissa, beside an exponent that is not too
    great. -/
theorem canonical_of_unpack {sign : Sign} {m : Nat} {e : Int} {hm : 0 < m}
    (h : x.toModel.unpack = .finite sign m e hm) : Canonical m e ∧ e ≤ maxExponent := by
  have hfinite : x.toModel.unpack.isFinite = true := by
    rw [h]
    rfl
  have hfits : Fits 53 maxExponent x.toModel.unpack := fits_unpack_of_isFinite hfinite
  rw [h] at hfits
  cases hfits with
  | finite _ hmax => exact ⟨canonical_of_unpack_eq h, hmax⟩

/-- What a double is unpacked to is one of the four. -/
theorem unpacked_unpack (x : Float) : Unpacked x.toModel.unpack := by
  cases hx : x.toModel.unpack with
  | notANumber => exact .notANumber
  | infinity sign => exact .infinity sign
  | zero sign => exact .zero sign
  | finite sign m e hm =>
    obtain ⟨hcanonical, hmax⟩ := canonical_of_unpack hx
    exact .finite hcanonical hmax

/-- A number whose mantissa has fewer than 53 bits is not changed by packing if it has the least
    exponent. -/
theorem unpack_pack_subnormal {sign : Sign} {m : Nat} (hm : m < 2 ^ 52) (hpos : 0 < m) :
    (Float.Model.pack (.finite sign m minExponent hpos)).unpack =
      .finite sign m minExponent hpos := by
  have hlog : m.log2 < 52 := (Nat.log2_lt hpos.ne').2 hm
  have htoNat : (BitVec.ofNat 52 m).toNat = m := by
    rw [BitVec.toNat_ofNat, Nat.mod_eq_of_lt hm]
  have hne : BitVec.ofNat 52 m ≠ 0#52 := fun h => by
    have h := congrArg BitVec.toNat h
    rw [htoNat] at h
    exact hpos.ne' h
  have hbits : ¬ m.log2 + 1 = Format.binary64.mantissaBits := by
    change ¬ m.log2 + 1 = 53
    omega
  have hpack : UnpackedFloat.pack Format.binary64 (.finite sign m minExponent hpos) =
      packComponents Format.binary64 sign 0#_ (BitVec.ofNat 52 m) := by
    simp only [UnpackedFloat.pack]
    rw [if_neg (by decide), if_neg hbits]
  change UnpackedFloat.unpack Format.binary64 (UnpackedFloat.pack Format.binary64 _) = _
  rw [hpack]
  simp only [UnpackedFloat.unpack, unpackMantissa_packComponents, unpackExponent_packComponents,
    unpackSign_packComponents, Sign.ofBitVec_toBitVec]
  rw [if_neg (by decide), if_pos trivial, dif_neg hne]
  simp only [htoNat]
  rfl

/-- What doubles are unpacked to comes back from packing as it was. -/
theorem Unpacked.unpack_pack (h : Unpacked u) : (Float.Model.pack u).unpack = u := by
  cases h with
  | notANumber => rfl
  | infinity sign => cases sign <;> rfl
  | zero sign => cases sign <;> rfl
  | @finite sign m e hm hcanonical hmax =>
    rw [Canonical, targetExponent_eq, minExponent] at hcanonical
    -- A normal number has all bits of the mantissa; a subnormal one has fewer, and the least
    -- exponent.
    by_cases hlog : m.log2 = 52
    · exact unpack_pack_normal hlog hm (by rw [minExponent]; omega) hmax
    · obtain rfl : e = minExponent := by
        rw [minExponent]
        omega
      have hless : m.log2 < 52 := by
        rw [minExponent] at hcanonical
        omega
      exact unpack_pack_subnormal ((Nat.log2_lt hm.ne').1 hless) hm

/-- The negation of what is unpacked is something that doubles are unpacked to. -/
theorem Unpacked.neg (h : Unpacked u) : Unpacked u.neg := by
  cases h with
  | notANumber => exact .notANumber
  | infinity => exact .infinity _
  | zero => exact .zero _
  | finite hcanonical hmax => exact .finite hcanonical hmax

/-- And so is the absolute value. -/
theorem Unpacked.abs (h : Unpacked u) : Unpacked u.abs := by
  cases h with
  | notANumber => exact .notANumber
  | infinity => exact .infinity _
  | zero => exact .zero _
  | finite hcanonical hmax => exact .finite hcanonical hmax

/-- A double is made again of what it is unpacked to. -/
theorem ofModel_pack_unpack (x : Float) : Float.ofModel (.pack x.toModel.unpack) = x :=
  Float.ofBits_toBits x

/-- A double is made again of what it is known to be unpacked to. -/
theorem ofModel_pack_eq (h : x.toModel.unpack = u) : Float.ofModel (.pack u) = x := by
  rw [← h, ofModel_pack_unpack]

/-- Doubles that are unpacked to the same are the same. -/
theorem eq_of_unpack_eq (h : x.toModel.unpack = y.toModel.unpack) : x = y := by
  rw [← ofModel_pack_eq h, ofModel_pack_unpack]

/-- Negation of doubles is that of what they are unpacked to. -/
theorem unpack_neg (x : Float) : (-x).toModel.unpack = x.toModel.unpack.neg :=
  (unpacked_unpack x).neg.unpack_pack

/-- The absolute value of doubles is that of what they are unpacked to. -/
theorem unpack_abs (x : Float) : x.abs.toModel.unpack = x.toModel.unpack.abs :=
  (unpacked_unpack x).abs.unpack_pack

/-- An absolute value has no other absolute value. -/
theorem abs_abs (x : Float) : x.abs.abs = x.abs := by
  refine eq_of_unpack_eq ?_
  rw [unpack_abs, unpack_abs]
  cases x.toModel.unpack <;> rfl

/-- A finite double is a zero, or has a mantissa and an exponent. -/
theorem unpack_of_isFinite (h : x.isFinite) :
    (∃ sign, x.toModel.unpack = .zero sign) ∨
      ∃ sign m e hm, x.toModel.unpack = .finite sign m e hm := by
  have h : x.toModel.unpack.isFinite = true := h
  cases hx : x.toModel.unpack with
  | zero sign => exact .inl ⟨sign, rfl⟩
  | finite sign m e hm => exact .inr ⟨sign, m, e, hm, rfl⟩
  | _ =>
    rw [hx] at h
    cases h

/-- Any other double is an infinity, or not a number. -/
theorem unpack_of_not_isFinite (h : ¬ x.isFinite) :
    x.toModel.unpack = .notANumber ∨ ∃ sign, x.toModel.unpack = .infinity sign := by
  have h : ¬ x.toModel.unpack.isFinite = true := h
  cases hx : x.toModel.unpack with
  | notANumber => exact .inl rfl
  | infinity sign => exact .inr ⟨sign, rfl⟩
  | _ =>
    rw [hx] at h
    exact absurd rfl h

/-- What is unpacked to what is not a number is not one. -/
theorem isNaN_of_unpack (h : x.toModel.unpack = .notANumber) : x.isNaN := by
  change x.toModel.unpack.isNaN = true
  rw [h]
  rfl

/-- The absolute value of an infinite double is the positive infinity. -/
theorem abs_eq_infinity (hnan : ¬ x.isNaN) (hfinite : ¬ x.isFinite) : x.abs = Decimal.infinity := by
  obtain hx | ⟨sign, hx⟩ := unpack_of_not_isFinite hfinite
  · exact absurd (isNaN_of_unpack hx) hnan
  · refine eq_of_unpack_eq ?_
    rw [unpack_abs, hx]
    rfl

/-- The absolute value of a finite double is finite. -/
theorem isFinite_abs (h : x.isFinite) : x.abs.isFinite := by
  change x.abs.toModel.unpack.isFinite = true
  rw [unpack_abs]
  obtain ⟨sign, hx⟩ | ⟨sign, m, e, hm, hx⟩ := unpack_of_isFinite h <;> rw [hx] <;> rfl

/-- A number is infinite if and only if it is not finite. -/
theorem isInf_iff (hnan : ¬ x.isNaN) : x.isInf ↔ ¬ x.isFinite := by
  have hinf : x.isInf = x.toModel.unpack.isInf := rfl
  have hfinite : x.isFinite = x.toModel.unpack.isFinite := rfl
  rw [hinf, hfinite]
  cases hx : x.toModel.unpack with
  | notANumber => exact absurd (isNaN_of_unpack hx) hnan
  | infinity sign => exact iff_of_true rfl nofun
  | zero sign => exact iff_of_false nofun (not_not_intro rfl)
  | finite sign m e hm => exact iff_of_false nofun (not_not_intro rfl)

/-! ### The first bit -/

/-- The sign of a number. What is not a number has none. -/
inductive HasSign (sign : Sign) : UnpackedFloat → Prop
  | notANumber : HasSign sign .notANumber
  | infinity : HasSign sign (.infinity sign)
  | zero : HasSign sign (.zero sign)
  | finite {m : Nat} {e : Int} {hm : 0 < m} : HasSign sign (.finite sign m e hm)

/-- The sign of what is unpacked is the first bit. -/
theorem hasSign_unpack (b : BitVec Format.binary64.numBits) :
    HasSign (.ofBitVec (unpackSign b)) (UnpackedFloat.unpack Format.binary64 b) := by
  simp only [UnpackedFloat.unpack]
  split
  · -- All ones in the exponent: an infinity, or what is not a number.
    split
    · exact .infinity
    · exact .notANumber
  split
  · split
    · exact .zero
    · exact .finite
  · exact .finite

/-- What is positive is its absolute value. -/
theorem HasSign.abs_eq (h : HasSign .positive u) : u.abs = u := by
  cases h <;> rfl

/-- What is negative is the negation of its absolute value. -/
theorem HasSign.neg_abs_eq (h : HasSign .negative u) : u.abs.neg = u := by
  cases h <;> rfl

/-- The first bit of a double is its sign. -/
theorem unpackSign_eq (x : Float) :
    (@unpackSign Format.binary64 x.toBits.toBitVec).toNat = (x.toBits >>> 63).toNat := by
  have hlt : x.toBits.toNat < 2 ^ 64 := x.toBits.toNat_lt
  have hshift : (x.toBits >>> 63).toNat = x.toBits.toNat / 2 ^ 63 := by
    rw [UInt64.toNat_shiftRight, Nat.shiftRight_eq_div_pow]
    rfl
  have hsign : (@unpackSign Format.binary64 x.toBits.toBitVec).toNat =
      x.toBits.toNat / 2 ^ 63 % 2 := by
    rw [unpackSign_def, BitVec.extractLsb'_toNat, Nat.shiftRight_eq_div_pow]
    rfl
  rw [hsign, hshift]
  omega

/-- A double whose first bit is not set is its absolute value. -/
theorem abs_eq_self (h : x.toBits >>> 63 = 0) : x.abs = x := by
  have hsign := hasSign_unpack x.toBits.toBitVec
  have hzero : @unpackSign Format.binary64 x.toBits.toBitVec = 0#1 :=
    BitVec.eq_of_toNat_eq (by rw [unpackSign_eq, h]; rfl)
  rw [hzero] at hsign
  exact eq_of_unpack_eq ((unpack_abs x).trans hsign.abs_eq)

/-- A double whose first bit is set is the negation of its absolute value. -/
theorem neg_abs_eq_self (h : x.toBits >>> 63 ≠ 0) : -x.abs = x := by
  have hsign := hasSign_unpack x.toBits.toBitVec
  have hone : @unpackSign Format.binary64 x.toBits.toBitVec = 1#1 := by
    have hne : (x.toBits >>> 63).toNat ≠ 0 := fun hzero => h (UInt64.toNat_inj.1 hzero)
    refine BitVec.eq_of_toNat_eq ?_
    have hlt := (@unpackSign Format.binary64 x.toBits.toBitVec).isLt
    rw [unpackSign_eq] at hlt ⊢
    change _ = 1
    omega
  rw [hone] at hsign
  refine eq_of_unpack_eq ?_
  rw [unpack_neg, unpack_abs]
  exact hsign.neg_abs_eq

/-! ### Differences -/

/-- A finite double differs from itself by zero. -/
theorem sub_self (h : x.isFinite) : x - x = 0 := by
  have hzero : UnpackedFloat.sub Format.binary64 x.toModel.unpack x.toModel.unpack =
      .zero .positive := by
    obtain ⟨sign, hx⟩ | ⟨sign, m, e, hm, hx⟩ := unpack_of_isFinite h <;> rw [hx]
    · cases sign <;> rfl
    · -- Both mantissas are the same, so that nothing is left to be normalized.
      simp only [UnpackedFloat.sub, Int.sub_self, UnpackedFloat.normalize]
      rfl
  change Float.ofModel (.pack (UnpackedFloat.sub Format.binary64 _ _)) = 0
  rw [hzero]
  rfl

/-- Any other double differs from itself by what is not a number. -/
theorem sub_self_of_not_isFinite (h : ¬ x.isFinite) : x - x = Number.nan := by
  have hnan : UnpackedFloat.sub Format.binary64 x.toModel.unpack x.toModel.unpack =
      .notANumber := by
    obtain hx | ⟨sign, hx⟩ := unpack_of_not_isFinite h <;> rw [hx]
    · rfl
    · cases sign <;> rfl
  change Float.ofModel (.pack (UnpackedFloat.sub Format.binary64 _ _)) = Number.nan
  rw [hnan]
  rfl

end Scoring.Double
