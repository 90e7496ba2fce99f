import Scoring.Proofs.Numerals
import Scoring.Proofs.Rounding

/-!
# Reading back

The text of a number is read as that number (`Number.read?_text`), unless it is not a number at all.

The digits of a decimal are read as a decimal of the same value
(`Decimal.exists_ofChars?_positional`), with fewer digits perhaps, as the zeros that end a fraction
are not written. Hence every number can be read back: the decimal that stands for it exactly is
rounded to it again (`Number.ofChars?_exact`). The digits that are chosen in its place have been
read back before.
-/

namespace Scoring

/-! ### Decimals -/

namespace Decimal

variable {cs ds : List Char}

/-- Zeros after the digits multiply by powers of ten. -/
theorem natOfDigits_append_zeros (cs : List Char) (n : Nat) :
    natOfDigits (cs ++ List.replicate n '0') = natOfDigits cs * 10 ^ n := by
  change Nat.ofDigitChars 10 _ 0 = _
  rw [Nat.ofDigitChars_append, Nat.ofDigitChars_replicate_zero, Nat.mul_comm]
  rfl

/-- Zeros before the digits of a number do not change it. -/
theorem natOfDigits_zeros_append_toDigits (k n : Nat) :
    natOfDigits (List.replicate k '0' ++ Nat.toDigits 10 n) = n := by
  change Nat.ofDigitChars 10 _ 0 = _
  rw [Nat.ofDigitChars_append, Nat.ofDigitChars_replicate_zero, Nat.mul_zero]
  exact Nat.ofDigitChars_ten_toDigits

/-- What is dropped at the end are zeros. -/
theorem exists_eq_dropTrailingZeros_append (cs : List Char) :
    ∃ n, cs = dropTrailingZeros cs ++ List.replicate n '0' := by
  refine ⟨(cs.reverse.takeWhile (· = '0')).length, ?_⟩
  have hzeros : cs.reverse.takeWhile (· = '0') =
      List.replicate (cs.reverse.takeWhile (· = '0')).length '0' :=
    List.eq_replicate_of_mem fun c hc => by simpa using List.mem_takeWhile_imp hc
  rw [dropTrailingZeros, ← List.reverse_inj, List.reverse_append, List.reverse_reverse,
    List.reverse_replicate, ← hzeros, List.takeWhile_append_dropWhile]

/-- The zeros that end a fraction have no value. -/
theorem value_dropTrailingZeros {places : Nat} (hplaces : places ≤ cs.length) :
    value ⟨natOfDigits (cs.take (cs.length - places) ++
        dropTrailingZeros (cs.drop (cs.length - places))),
      -(dropTrailingZeros (cs.drop (cs.length - places))).length⟩ =
      natOfDigits cs * 10 ^ (-places : Int) := by
  obtain ⟨n, hn⟩ := exists_eq_dropTrailingZeros_append (cs.drop (cs.length - places))
  have hlength : places = (dropTrailingZeros (cs.drop (cs.length - places))).length + n := by
    have h := congrArg List.length hn
    rw [List.length_drop, List.length_append, List.length_replicate] at h
    omega
  have hcs : cs = cs.take (cs.length - places) ++
      dropTrailingZeros (cs.drop (cs.length - places)) ++ List.replicate n '0' := by
    rw [List.append_assoc, ← hn, List.take_append_drop]
  generalize dropTrailingZeros (cs.drop (cs.length - places)) = fraction at hlength hcs ⊢
  generalize cs.take (cs.length - places) = whole at hcs ⊢
  rw [value, hcs, natOfDigits_append_zeros, hlength]
  have hsplit : (10 : ℚ) ^ (-fraction.length : Int) =
      10 ^ n * 10 ^ (-(fraction.length + n : Nat) : Int) := by
    rw [← zpow_natCast, ← zpow_add₀ (by norm_num)]
    congr 1
    omega
  rw [hsplit]
  push_cast
  ring

/-- Digits with a point before the last of them, without zeros at the end, read as a decimal of
    their value. -/
theorem exists_ofChars?_split {places : Nat} (hdigits : ∀ c ∈ cs, c.isDigit)
    (hplaces : places < cs.length) :
    ∃ read, ofChars? (if (dropTrailingZeros (cs.drop (cs.length - places))).isEmpty
      then cs.take (cs.length - places)
      else cs.take (cs.length - places) ++
        '.' :: dropTrailingZeros (cs.drop (cs.length - places))) = some read ∧
      read.value = natOfDigits cs * 10 ^ (-places : Int) := by
  obtain ⟨hne, hwhole, hfraction⟩ := digits_of_split hdigits hplaces
  have hvalue := value_dropTrailingZeros (Nat.le_of_lt hplaces)
  split
  · rename_i hempty
    rw [List.isEmpty_iff.1 hempty, List.append_nil] at hvalue
    exact ⟨_, ofChars?_whole hne hwhole, hvalue⟩
  · exact ⟨_, ofChars?_fraction hne hwhole hfraction, hvalue⟩

/-- The digits of a decimal are read as a decimal of the same value. -/
theorem exists_ofChars?_positional (d : Decimal) :
    ∃ read, ofChars? d.positional = some read ∧ read.value = d.value := by
  rw [positional]
  split
  · rename_i hexponent
    refine ⟨_, ofChars?_whole (List.append_ne_nil_of_left_ne_nil Nat.toDigits_ne_nil _)
      isDigit_of_mem_toDigits_append, ?_⟩
    have hsignificand := natOfDigits_zeros_append_toDigits 0 d.significand
    rw [List.replicate_zero, List.nil_append] at hsignificand
    have hpower : (10 : ℚ) ^ d.exponent.toNat = 10 ^ d.exponent := by
      rw [← zpow_natCast, Int.toNat_of_nonneg hexponent]
    rw [value, value, natOfDigits_append_zeros, hsignificand, zpow_zero, mul_one, ← hpower]
    push_cast
    rfl
  · rename_i hexponent
    -- Zeros are put in front, so that a digit is left before the point.
    have hplaces : d.exponent.natAbs < (List.replicate (d.exponent.natAbs + 1 -
        (Nat.toDigits 10 d.significand).length) '0' ++ Nat.toDigits 10 d.significand).length := by
      rw [List.length_append, List.length_replicate]
      omega
    obtain ⟨read, hread, hvalue⟩ := exists_ofChars?_split isDigit_of_mem_append_toDigits hplaces
    refine ⟨read, hread, hvalue.trans ?_⟩
    rw [natOfDigits_zeros_append_toDigits, value]
    congr 2
    omega

/-- A decimal without a value stands for zero. -/
theorem toFloat_of_value_eq_zero {d : Decimal} (h : d.value = 0) : d.toFloat = 0 := by
  have hzero : d.significand = 0 := by
    have hpower : (10 : ℚ) ^ d.exponent ≠ 0 := zpow_ne_zero _ (by norm_num)
    exact_mod_cast (mul_eq_zero.1 h).resolve_right hpower
  simp [toFloat, hzero]

end Decimal

/-! ### Numbers -/

namespace Number

open Float.Model UnpackedFloat Double

variable {x : Float} {cs : List Char}

/-- A digit has no lower case. -/
theorem toLower_eq_of_isDigit {c : Char} (h : c.isDigit) : c.toLower = c := by
  refine Char.toLower_eq_of_not_isUpper fun hupper => ?_
  simp only [Char.isDigit, Char.isUpper, Bool.and_eq_true, decide_eq_true_eq] at h hupper
  exact absurd (UInt32.le_trans hupper.1 h.2) (by decide)

/-- What begins with a digit is none of the words. -/
theorem ofChars?_of_positional (h : Decimal.Positional cs) :
    ofChars? cs = (Decimal.ofChars? cs).map Decimal.toFloat := by
  obtain ⟨c, rest, rfl, hc⟩ := h.exists_cons
  have hne : ∀ d ds, ¬ d.isDigit → String.ofList ((c :: rest).map Char.toLower) ≠
      String.ofList (d :: ds) := fun d ds hd h => by
    have hhead := (List.cons.inj (String.ofList_injective h)).1
    rw [toLower_eq_of_isDigit hc] at hhead
    exact hd (hhead ▸ hc)
  rw [ofChars?]
  split
  · exact absurd ‹_› (hne 'i' ['n', 'f'] (by decide))
  · exact absurd ‹_› (hne 'i' ['n', 'f', 'i', 'n', 'i', 't', 'y'] (by decide))
  · exact absurd ‹_› (hne 'n' ['a', 'n'] (by decide))
  · rfl

/-- The mantissa is in the last 52 bits. -/
theorem unpackMantissa_eq (x : Float) :
    (@unpackMantissa Format.binary64 x.toBits.toBitVec).toNat =
      x.toBits.toNat % 0x10000000000000 := by
  rw [unpackMantissa_def, BitVec.extractLsb'_toNat, Nat.shiftRight_zero]
  rfl

/-- The exponent is in the eleven bits before the mantissa. -/
theorem unpackExponent_eq (x : Float) :
    (@unpackExponent Format.binary64 x.toBits.toBitVec).toNat =
      x.toBits.toNat / 0x10000000000000 % 0x800 := by
  rw [unpackExponent_def, BitVec.extractLsb'_toNat, Nat.shiftRight_eq_div_pow]
  rfl

/-- The exact decimal of a double is made of its mantissa and its exponent. -/
theorem exact_eq {m : Nat} {e : Int} {hm : 0 < m} {sign : Sign}
    (hx : x.toModel.unpack = .finite sign m e hm) :
    exact x = if 0 ≤ e then ⟨m * 2 ^ e.toNat, 0⟩ else ⟨m * 5 ^ e.natAbs, e⟩ := by
  change UnpackedFloat.unpack Format.binary64 x.toBits.toBitVec = _ at hx
  have hmantissa := unpackMantissa_eq x
  have hexponent := unpackExponent_eq x
  simp only [exact, ← hmantissa, ← hexponent]
  have hbias : Format.binary64.exponentBias = 1023 := rfl
  simp only [UnpackedFloat.unpack, hbias] at hx
  split at hx
  · split at hx <;> cases hx
  split at hx
  · split at hx
    · cases hx
    · rename_i hzero _
      cases hx
      -- A subnormal number: its exponent is that of the least normal one.
      have hzero : (@unpackExponent Format.binary64 x.toBits.toBitVec).toNat = 0 :=
        congrArg BitVec.toNat hzero
      have hleast : ((max 0 1 : Nat) : Int) - 1075 =
          (0 : Nat) - ((1023 : Nat) + (52 : Nat)) + 1 := rfl
      rw [hzero, if_pos rfl, hleast]
      generalize (0 : Nat) - ((1023 : Nat) + (52 : Nat) : Int) + 1 = e
      rfl
  · rename_i hne
    cases hx
    -- A normal number has one more bit than its mantissa, which is not stored.
    have hpos : (@unpackExponent Format.binary64 x.toBits.toBitVec).toNat ≠ 0 :=
      fun h => hne (BitVec.eq_of_toNat_eq h)
    have hone : (1#1 ++ @unpackMantissa Format.binary64 x.toBits.toBitVec).toNat =
        2 ^ 52 + (@unpackMantissa Format.binary64 x.toBits.toBitVec).toNat :=
      toNat_one_append _
    rw [if_neg hpos, hone, Nat.max_eq_left (by omega), Nat.add_comm]
    rfl

/-- The exact decimal of a double has the value of the double. -/
theorem value_exact {m : Nat} {e : Int} {hm : 0 < m} {sign : Sign}
    (hx : x.toModel.unpack = .finite sign m e hm) : (exact x).value = m * 2 ^ e := by
  have hexact := exact_eq hx
  split at hexact
  · rename_i he
    have hpower : (2 : ℚ) ^ e.toNat = 2 ^ e := by
      rw [← zpow_natCast, Int.toNat_of_nonneg he]
    rw [hexact, Decimal.value, zpow_zero, mul_one, ← hpower]
    push_cast
    rfl
  · rename_i he
    -- `2 ^ e` is `5 ^ -e · 10 ^ e`.
    have hfive : ((5 ^ e.natAbs : Nat) : ℚ) = 5 ^ (-e) := by
      rw [← Int.natAbs_of_nonneg (show 0 ≤ -e by omega), Int.natAbs_neg, zpow_natCast]
      push_cast
      rfl
    have hten : (10 : ℚ) ^ e = 5 ^ e * 2 ^ e := by
      rw [← mul_zpow]
      norm_num
    have hcancel : (5 : ℚ) ^ (-e) * 5 ^ e = 1 := by
      rw [← zpow_add₀ (by norm_num), neg_add_cancel, zpow_zero]
    calc (exact x).value
        = m * (5 ^ (-e) * 5 ^ e) * 2 ^ e := by
          rw [hexact, Decimal.value, Nat.cast_mul, hfive, hten]
          ring
      _ = m * 2 ^ e := by rw [hcancel, mul_one]

/-- The exact decimal of zero has no value. -/
theorem value_exact_zero : (exact 0).value = 0 := by
  have hzero : (exact 0).significand = 0 := by decide +kernel
  rw [Decimal.value, hzero, Nat.cast_zero, zero_mul]

/-- The digits of the decimal that a number is are read back as that number. -/
theorem ofChars?_exact (hfinite : x.isFinite) (hsign : x.abs = x) :
    ofChars? (exact x).positional = some x := by
  obtain ⟨read, hread, hvalue⟩ := (exact x).exists_ofChars?_positional
  rw [ofChars?_of_positional (exact x).positional_positional, hread, Option.map_some,
    Option.some_inj]
  have habs := unpack_abs x
  rw [hsign] at habs
  -- It is zero, or has a mantissa and an exponent.
  obtain ⟨sign, hx⟩ | ⟨sign, m, e, hm, hx⟩ := unpack_of_isFinite hfinite <;>
    rw [hx] at habs <;> cases habs
  · obtain rfl : x = 0 := eq_of_unpack_eq hx
    exact Decimal.toFloat_of_value_eq_zero (hvalue.trans value_exact_zero)
  · exact Decimal.toFloat_eq hx (hvalue.trans (value_exact hx))

/-- The digits that are written for a number are read back as that number. -/
theorem ofChars?_shortest (hfinite : x.isFinite) (hsign : x.abs = x) :
    ofChars? (shortest x).positional = some x := by
  rw [shortest]
  generalize hfound : (List.findSome? _ _ : Option Decimal) = found
  cases found with
  | none => exact ofChars?_exact hfinite hsign
  | some d =>
    -- A shorter decimal is taken only where it is read back.
    obtain ⟨n, _, hn⟩ := List.exists_of_findSome?_eq_some hfound
    have hback := List.find?_some hn
    simp only [readsBack, Bool.and_eq_true, decide_eq_true_eq] at hback
    exact hback.2

/-- The text of a number is read as that number. -/
theorem read?_text (h : ¬ x.isNaN) : read? (text x) = some x := by
  have hdigits : ∃ cs, (if x.isInf then "inf" else String.ofList (shortest x.abs).positional) =
      String.ofList cs ∧ read? (String.ofList cs) = some x.abs ∧
        read? ("-" ++ String.ofList cs) = some (-x.abs) := by
    -- A finite number has digits, and an infinite one the word for it.
    by_cases hfinite : x.isFinite
    · obtain ⟨hplain, hminus⟩ := read?_of_positional (shortest x.abs).positional_positional
      have hback := ofChars?_shortest (isFinite_abs hfinite) (abs_abs x)
      refine ⟨_, if_neg fun hinf => (isInf_iff h).1 hinf hfinite, hplain.trans hback, ?_⟩
      rw [hminus, hback, Option.map_some]
    · refine ⟨['i', 'n', 'f'], if_pos ((isInf_iff h).2 hfinite), ?_⟩
      rw [abs_eq_infinity h hfinite]
      decide
  obtain ⟨cs, hcs, hplain, hminus⟩ := hdigits
  rw [text, if_neg h]
  simp only [hcs]
  split
  · rw [hplain, abs_eq_self ‹_›]
  · rw [hminus, neg_abs_eq_self ‹_›]

end Number

end Scoring
