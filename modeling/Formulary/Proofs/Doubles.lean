import Formulary.Proofs.Rounding

/-!
# Doubles that are equal

Two doubles that compare as equal are the same unless they are zeros of different sign, and in
comparisons even these count as the same. A whole number that equals a double exactly is rounded to
that double, and is kept where small values become zeros.
-/

namespace Formulary.Binary64

open Float.Model (UnpackedFloat Format)
open Float.Model.UnpackedFloat (packComponents unpackExponent unpackMantissa unpackSign packedNaN)

/-! ## Order -/

theorem lt_iff_unpack (left right : Float) :
    left < right ↔ UnpackedFloat.lt left.toModel.unpack right.toModel.unpack = true := by
  show (decide _ = true) ↔ _
  exact decide_eq_true_iff

theorem le_iff_unpack (left right : Float) :
    left ≤ right ↔ UnpackedFloat.le left.toModel.unpack right.toModel.unpack = true := by
  show (decide _ = true) ↔ _
  exact decide_eq_true_iff

theorem beq_iff_unpack (left right : Float) :
    (left == right) = true ↔
      UnpackedFloat.beq left.toModel.unpack right.toModel.unpack = true := Iff.rfl

theorem unpack_zero : (0 : Float).toModel.unpack = .zero .positive := rfl

theorem unpack_neg_zero : (-0 : Float).toModel.unpack = .zero .negative := rfl

/-- The sign of a zero does not matter in comparisons. -/
theorem compare_zero (sign other : UnpackedFloat.Sign) (value : UnpackedFloat) :
    UnpackedFloat.compare (.zero sign) value = UnpackedFloat.compare (.zero other) value := by
  cases value with
  | finite side => cases side <;> rfl
  | infinity side => cases side <;> rfl
  | _ => rfl

theorem compare_zero_right (sign other : UnpackedFloat.Sign) (value : UnpackedFloat) :
    UnpackedFloat.compare value (.zero sign) = UnpackedFloat.compare value (.zero other) := by
  cases value with
  | finite side => cases side <;> rfl
  | infinity side => cases side <;> rfl
  | _ => rfl

variable {left right : Float}

/-- Equal doubles are the same, or both are zeros. -/
theorem unpack_of_beq (equal : (left == right) = true) :
    left = right ∨ ∃ sign other, left.toModel.unpack = .zero sign ∧
      right.toModel.unpack = .zero other := by
  obtain ⟨_, _, same | ⟨rfl, rfl⟩ | ⟨rfl, rfl⟩⟩ := Float.beq_iff_ne_nan_and_eq.mp equal
  · exact .inl same
  · exact .inr ⟨_, _, unpack_zero, unpack_neg_zero⟩
  · exact .inr ⟨_, _, unpack_neg_zero, unpack_zero⟩

theorem lt_congr_of_beq (equal : (left == right) = true) (value : Float) :
    left < value ↔ right < value := by
  rcases unpack_of_beq equal with rfl | ⟨sign, other, first, second⟩
  · rfl
  · rw [lt_iff_unpack, lt_iff_unpack, first, second, UnpackedFloat.lt, UnpackedFloat.lt,
      compare_zero sign other]

theorem le_congr_of_beq (equal : (left == right) = true) (value : Float) :
    value ≤ left ↔ value ≤ right := by
  rcases unpack_of_beq equal with rfl | ⟨sign, other, first, second⟩
  · rfl
  · rw [le_iff_unpack, le_iff_unpack, first, second, UnpackedFloat.le, UnpackedFloat.le,
      compare_zero_right sign other]

theorem beq_congr_of_beq (equal : (left == right) = true) (value : Float) :
    (value == left) = (value == right) := by
  rcases unpack_of_beq equal with rfl | ⟨sign, other, first, second⟩
  · rfl
  · rw [Bool.eq_iff_iff, beq_iff_unpack, beq_iff_unpack, first, second, UnpackedFloat.beq,
      UnpackedFloat.beq, compare_zero_right sign other]

theorem compare_eq_of_beq (equal : (left == right) = true) :
    UnpackedFloat.compare left.toModel.unpack right.toModel.unpack = some .eq := by
  have compared : UnpackedFloat.beq left.toModel.unpack right.toModel.unpack = true := equal
  simpa [UnpackedFloat.beq] using compared

theorem not_lt_of_beq (equal : (left == right) = true) : ¬left < right := by
  rw [lt_iff_unpack, UnpackedFloat.lt, compare_eq_of_beq equal]
  decide

theorem le_of_beq (equal : (left == right) = true) : left ≤ right := by
  rw [le_iff_unpack, UnpackedFloat.le, compare_eq_of_beq equal]
  decide

theorem beq_comm (left right : Float) : (left == right) = (right == left) := by
  rw [Bool.eq_iff_iff, Float.beq_iff_ne_nan_and_eq, Float.beq_iff_ne_nan_and_eq]
  grind

/-- Equal doubles with the same sign bit are the same. -/
theorem eq_of_beq (equal : (left == right) = true) (sign : signBit left = signBit right) :
    left = right := by
  obtain ⟨_, _, same | ⟨rfl, rfl⟩ | ⟨rfl, rfl⟩⟩ := Float.beq_iff_ne_nan_and_eq.mp equal
  · exact same
  · exact absurd sign (by decide)
  · exact absurd sign (by decide)

/-! ## Doubles without their subnormal part -/

/-- The bits of a double without its sign. -/
def magnitudeBits (bits : BitVec Format.binary64.numBits) : BitVec Format.binary64.numBits :=
  packComponents .binary64 .positive (unpackExponent bits) (unpackMantissa bits)

theorem valid_magnitudeBits {bits : BitVec Format.binary64.numBits}
    (valid : Format.binary64.Valid bits) : Format.binary64.Valid (magnitudeBits bits) := by
  refine ⟨fun exponent mantissa => ?_⟩
  simp only [magnitudeBits, UnpackedFloat.unpackExponent_packComponents,
    UnpackedFloat.unpackMantissa_packComponents] at exponent mantissa
  rw [magnitudeBits, valid.eq_packedNaN exponent mantissa]
  simp [packedNaN]

theorem unpack_magnitudeBits (bits : BitVec Format.binary64.numBits) :
    UnpackedFloat.unpack .binary64 (magnitudeBits bits) =
      (UnpackedFloat.unpack .binary64 bits).abs := by
  have sign : UnpackedFloat.Sign.ofBitVec (unpackSign (magnitudeBits bits)) = .positive := by
    rw [magnitudeBits, UnpackedFloat.unpackSign_packComponents,
      UnpackedFloat.Sign.ofBitVec_toBitVec]
  simp only [UnpackedFloat.unpack, sign]
  simp only [magnitudeBits, UnpackedFloat.unpackExponent_packComponents,
    UnpackedFloat.unpackMantissa_packComponents]
  split
  · split <;> rfl
  · split
    · split <;> rfl
    · rfl

theorem unpack_abs (value : Float) : value.abs.toModel.unpack = value.toModel.unpack.abs := by
  have packed : UnpackedFloat.pack .binary64 value.toModel.unpack.abs =
      magnitudeBits value.toModel.toBits.toBitVec := by
    rw [Float.Model.unpack, ← unpack_magnitudeBits]
    exact UnpackedFloat.pack_unpack_of_valid (valid_magnitudeBits value.toModel.valid)
  show UnpackedFloat.unpack .binary64 (UnpackedFloat.pack .binary64 value.toModel.unpack.abs) = _
  rw [packed, unpack_magnitudeBits]
  rfl

theorem unpack_leastNormal : ∃ positive,
    leastNormal.toModel.unpack = .finite .positive (2 ^ 52) (-1074) positive :=
  ⟨by decide, rfl⟩

theorem toNat_unpackExponent (bits : BitVec Format.binary64.numBits) :
    (unpackExponent bits).toNat = bits.toNat / 2 ^ 52 % 2 ^ 11 := by
  rw [UnpackedFloat.unpackExponent_def, BitVec.extractLsb'_toNat, Nat.shiftRight_eq_div_pow]

/-- A positive double with no smaller exponent and significand is not below another. -/
theorem not_lt_finite {significand least : Nat} {exponent lowest : Int}
    {some : 0 < significand} {positive : 0 < least} (exponents : lowest ≤ exponent)
    (significands : least ≤ significand) :
    UnpackedFloat.lt (.finite .positive significand exponent some)
      (.finite .positive least lowest positive) = false := by
  simp only [UnpackedFloat.lt, UnpackedFloat.compare]
  rcases Int.lt_or_eq_of_le exponents with above | rfl
  · rw [compare_gt_iff_gt.mpr above]
    rfl
  · rw [compare_eq_iff_eq.mpr rfl]
    rcases Nat.lt_or_eq_of_le significands with above | rfl
    · rw [compare_gt_iff_gt.mpr above]
      rfl
    · rw [compare_eq_iff_eq.mpr rfl]
      rfl

/-- no subnormal number -/
theorem flush_of_normal {value : Float} (normal : 1 ≤ value.toBits.toNat / 2 ^ 52 % 2 ^ 11) :
    flush value = value := by
  have above : ¬value.abs < leastNormal := by
    obtain ⟨positive, least⟩ := unpack_leastNormal
    rw [lt_iff_unpack, unpack_abs, least, Float.Model.unpack]
    have field : (@unpackExponent .binary64 value.toModel.toBits.toBitVec).toNat ≠ 0 := by
      rw [toNat_unpackExponent]
      exact Nat.ne_of_gt normal
    simp only [UnpackedFloat.unpack]
    split
    case isTrue => split <;> exact nofun
    case isFalse =>
        rw [if_neg fun zero => field (by rw [zero]; rfl)]
        have bias : Format.binary64.exponentBias = 1023 := by decide
        have digits : 2 ^ 52 ≤ (1#1 ++ @unpackMantissa .binary64
            value.toModel.toBits.toBitVec).toNat := by
          rw [BitVec.toNat_append]
          exact Nat.left_le_or
        refine Bool.eq_false_iff.mp (not_lt_finite ?_ digits)
        rw [bias]
        omega
  rw [flush, if_neg above]
theorem flush_ne_nan {value : Float} (defined : value ≠ Float.nan) : flush value ≠ Float.nan := by
  unfold flush
  split
  case isTrue =>
      cases sign : signBit value <;> (simp only [copySign, sign]; decide)
  case isFalse => exact defined

/-- Equal doubles stay equal without their subnormal parts. -/
theorem flush_congr_of_beq {left right : Float} (equal : (left == right) = true) :
    (flush left == flush right) = true := by
  obtain ⟨defined, _, rfl | ⟨rfl, rfl⟩ | ⟨rfl, rfl⟩⟩ := Float.beq_iff_ne_nan_and_eq.mp equal
  · exact Float.beq_self_iff.mpr (flush_ne_nan defined)
  · decide
  · decide

/-! ## Whole numbers -/

/-- A finite double is a given integer if its size with its sign is. -/
theorem Finite.isInt_iff {parts : Finite} {value : Int} :
    parts.isInt value = true ↔
      (if parts.negative then -parts.magnitude else parts.magnitude) = (value : ℚ) := by
  have signed : (if parts.negative then -parts.magnitude else parts.magnitude) =
      (if parts.negative then -(parts.significand : Int) else parts.significand : Int) *
        (2 : ℚ) ^ parts.exponent := by
    split <;> simp [magnitude]
  rw [signed]
  simp only [isInt, Nat.pow_eq]
  generalize (if parts.negative then -(parts.significand : Int) else parts.significand) = size
  split
  case isTrue whole =>
      rw [decide_eq_true_iff, ← two_pow_toNat whole]
      exact_mod_cast Iff.rfl
  case isFalse part =>
      rw [decide_eq_true_iff, ← eq_mul_inv_iff_mul_eq₀ (by positivity), ← two_pow_toNat_neg part]
      exact_mod_cast Iff.rfl

theorem Finite.magnitude_nonneg (parts : Finite) : 0 ≤ parts.magnitude := by
  rw [magnitude]
  positivity

/-- The size of an integer that a double equals. -/
theorem Finite.natAbs_eq_magnitude {parts : Finite} {value : Int}
    (whole : parts.isInt value = true) : (value.natAbs : ℚ) = parts.magnitude := by
  rw [Nat.cast_natAbs, Int.cast_abs, ← isInt_iff.mp whole]
  split
  case isTrue => rw [abs_neg, abs_of_nonneg parts.magnitude_nonneg]
  case isFalse => rw [abs_of_nonneg parts.magnitude_nonneg]

/-- The sign of an integer other than zero that a double equals. -/
theorem Finite.negative_of_isInt {parts : Finite} {value : Int} (whole : parts.isInt value = true)
    (other : value ≠ 0) : parts.negative = decide (value < 0) := by
  have exact := isInt_iff.mp whole
  have nonneg := parts.magnitude_nonneg
  cases marked : parts.negative with
  | false =>
      rw [marked, if_neg Bool.false_ne_true] at exact
      have : 0 ≤ value := by exact_mod_cast exact ▸ nonneg
      exact (decide_eq_false (by omega)).symm
  | true =>
      rw [marked, if_pos rfl] at exact
      have : value ≤ 0 := by exact_mod_cast exact ▸ neg_nonpos.mpr nonneg
      exact (decide_eq_true (by omega)).symm

/-- A subnormal double is less than one. -/
theorem Finite.magnitude_lt_one {parts : Finite} (small : parts.significand < 2 ^ 52)
    (exponent : parts.exponent = -1074) : parts.magnitude < 1 := by
  have small_cast : (parts.significand : ℚ) < 2 ^ (52 : Int) := by exact_mod_cast small
  have wide : (2 : ℚ) ^ (52 : Int) ≤ 2 ^ (1074 : Int) := zpow_le_zpow_right₀ one_le_two (by decide)
  rw [magnitude, exponent, zpow_neg, ← div_eq_mul_inv, div_lt_one (by positivity)]
  exact small_cast.trans_le wide

section Decoded

variable {bits : Nat} {parts : Finite} (decoded : decodeBits? bits = some parts)

include decoded

/-- A whole number other than zero that a double given by its bits equals: the double is no
subnormal number, and the number is rounded to it. -/
theorem ratioBits_of_isInt {value : Int} (whole : parts.isInt value = true) (other : value ≠ 0) :
    1 ≤ bits / 2 ^ 52 % 2 ^ 11 ∧ ratioBits value.natAbs 1 = bits % 2 ^ 63 ∧
      ratioBits value.natAbs 1 < infinityBits ∧ decide (value < 0) = decide (2 ^ 63 ≤ bits) := by
  obtain ⟨canonical, same, sign⟩ := canonical_of_decodeBits? decoded
  have size := Finite.natAbs_eq_magnitude whole
  have least : 1 ≤ parts.magnitude := by
    rw [← size]
    exact_mod_cast Int.natAbs_pos.mpr other
  have some : 0 < parts.significand := by
    by_contra none
    rw [Finite.magnitude, Nat.eq_zero_of_not_pos none] at least
    norm_num at least
  have contains : (Decimal.Interval.ofFinite parts).Contains ((value.natAbs : ℚ) / (1 : Nat)) := by
    refine Decimal.contains_of_near some ?_
    rw [Nat.cast_one, div_one, size, sub_self, abs_zero]
    positivity
  have rounded := Decimal.ratioBits_of_contains canonical some Nat.one_pos contains
  refine ⟨?_, rounded.trans same, ?_, (Finite.negative_of_isInt whole other).symm.trans sign⟩
  · by_contra subnormal
    obtain ⟨_, _, ⟨_, significand, exponent⟩ | ⟨normal, _, _⟩⟩ := decodeBits?_eq_some decoded
    · exact absurd (Finite.magnitude_lt_one (by omega) exponent) (not_lt.mpr least)
    · omega
  · rw [rounded]
    exact Finite.bits_lt canonical

/-- A double given by its bits that equals zero has nothing but a sign. -/
theorem bits_of_isInt_zero (zero : parts.isInt 0 = true) : bits % 2 ^ 63 = 0 := by
  obtain ⟨canonical, same, _⟩ := canonical_of_decodeBits? decoded
  have nothing : parts.significand = 0 := by
    have size := Finite.natAbs_eq_magnitude zero
    have power : (2 : ℚ) ^ parts.exponent ≠ 0 := by positivity
    simpa [Finite.magnitude, power, eq_comm] using size
  have normal := canonical.normal
  rw [← same, Finite.bits]
  omega

end Decoded

theorem ofBits_of_toNat {value : Float} {bits : Nat} (same : value.toBits.toNat = bits) :
    Float.ofBits (UInt64.ofNat bits) = value := by
  rw [← same, UInt64.ofNat_toNat, Float.ofBits_toBits]

/-- A whole number that a double equals exactly is rounded to this double, up to the sign of a zero,
and is no subnormal number. -/
theorem equalsInt_spec {value : Float} {whole : Int} (exact : equalsInt value whole = true) :
    ofInt? whole = some (ofInt whole) ∧ (ofInt whole == value) = true ∧
      flush (ofInt whole) = ofInt whole := by
  simp only [equalsInt, decode?] at exact
  split at exact
  case h_2 => cases exact
  case h_1 parts decoded =>
      by_cases zero : whole = 0
      · subst zero
        refine ⟨by rw [ofInt?, if_pos (by decide)], ?_, by decide⟩
        have nothing := bits_of_isInt_zero decoded exact
        have below := value.toBits.toNat_lt
        have zeros : value.toBits.toNat = 0 ∨ value.toBits.toNat = 2 ^ 63 := by omega
        rcases zeros with plus | minus
        · rw [← ofBits_of_toNat plus]
          decide
        · rw [← ofBits_of_toNat minus]
          decide
      · obtain ⟨normal, rounded, range, sign⟩ := ratioBits_of_isInt decoded exact zero
        have below := value.toBits.toNat_lt
        have found : ofInt whole = value := by
          rw [ofInt, ofRatio, rounded, sign]
          refine ofBits_of_toNat ?_
          split <;> simp_all <;> omega
        refine ⟨by rw [ofInt?, if_pos range], ?_, ?_⟩
        · rw [found, Float.beq_self_iff]
          rintro rfl
          have none : decodeBits? Float.nan.toBits.toNat = none := by decide
          rw [none] at decoded
          cases decoded
        · rw [found]
          exact flush_of_normal normal

/-- A double equals one integer at most. -/
theorem equalsInt_unique {value : Float} {whole other : Int} (exact : equalsInt value whole = true)
    (again : equalsInt value other = true) : whole = other := by
  unfold equalsInt at exact again
  cases decoded : decode? value with
  | none =>
      rw [decoded] at exact
      cases exact
  | some parts =>
      rw [decoded] at exact again
      have same := (Finite.isInt_iff.mp exact).symm.trans (Finite.isInt_iff.mp again)
      exact_mod_cast same

/-- Equal doubles equal the same integers; the zeros do not differ in that. -/
theorem equalsInt_congr_of_beq {left right : Float} (equal : (left == right) = true)
    (whole : Int) : equalsInt left whole = equalsInt right whole := by
  have plus : decode? 0 = some ⟨false, 0, -1074⟩ := by decide
  have minus : decode? (-0) = some ⟨true, 0, -1074⟩ := by decide
  have zeros : equalsInt 0 whole = equalsInt (-0) whole := by
    simp only [equalsInt, plus, minus]
    rw [Bool.eq_iff_iff, Finite.isInt_iff, Finite.isInt_iff]
    simp [Finite.magnitude]
  obtain ⟨_, _, same | ⟨rfl, rfl⟩ | ⟨rfl, rfl⟩⟩ := Float.beq_iff_ne_nan_and_eq.mp equal
  · rw [same]
  · exact zeros
  · exact zeros.symm

/-- Doubles that equal one integer are equal. -/
theorem beq_of_equalsInt {left right : Float} {whole : Int} (first : equalsInt left whole = true)
    (second : equalsInt right whole = true) : (left == right) = true := by
  obtain ⟨_, same, _⟩ := equalsInt_spec first
  obtain ⟨_, other, _⟩ := equalsInt_spec second
  rw [← beq_congr_of_beq other, beq_comm]
  exact same

end Formulary.Binary64
