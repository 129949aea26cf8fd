import Formulary.Proofs.Doubles

/-!
# Differences of doubles

A comparison with a tolerance asks whether a difference exceeds it, or the difference the other way
round, or whether the size of the difference is at most the tolerance. The two differences are
opposite numbers, since rounding does not look at the sign; only the sign of a zero is another one.
So under a tolerance of zero or more the three answers shut each other out and leave nothing over.

A difference may be infinite without harm. It is undefined only if an operand is, or if both
operands are the same infinity, and then all three answers are no.
-/

namespace Formulary.Binary64

open Float.Model (UnpackedFloat Format)
open Float.Model.UnpackedFloat (Sign packComponents)

/-! ## Changes of sign -/

/-- The sign of packed parts is the sign of what is unpacked, unless that is undefined. -/
theorem unpack_packComponents_neg (sign : Sign) (exponent : BitVec Format.binary64.exponentBits)
    (mantissa : BitVec Format.binary64.mantissaBitsWithoutImplicit) :
    UnpackedFloat.unpack .binary64 (packComponents .binary64 (-sign) exponent mantissa) =
      (UnpackedFloat.unpack .binary64 (packComponents .binary64 sign exponent mantissa)).neg := by
  simp only [UnpackedFloat.unpack, UnpackedFloat.unpackSign_packComponents,
    UnpackedFloat.unpackExponent_packComponents, UnpackedFloat.unpackMantissa_packComponents,
    Sign.ofBitVec_toBitVec]
  split
  · split <;> rfl
  · split
    · split <;> rfl
    · rfl

/-- Packing does not look at the sign. -/
theorem unpack_pack_neg (value : UnpackedFloat) :
    UnpackedFloat.unpack .binary64 (UnpackedFloat.pack .binary64 value.neg) =
      (UnpackedFloat.unpack .binary64 (UnpackedFloat.pack .binary64 value)).neg := by
  cases value with
  | notANumber => rfl
  | infinity sign => exact unpack_packComponents_neg sign _ _
  | zero sign => exact unpack_packComponents_neg sign _ _
  | finite sign mantissa exponent positive =>
      simp only [UnpackedFloat.neg, UnpackedFloat.pack]
      split
      · exact unpack_packComponents_neg sign _ _
      · split <;> exact unpack_packComponents_neg sign _ _

/-- Nothing that is defined is packed as undefined. -/
theorem unpack_pack_ne_notANumber {value : UnpackedFloat} (defined : value ≠ .notANumber) :
    UnpackedFloat.unpack .binary64 (UnpackedFloat.pack .binary64 value) ≠ .notANumber := by
  have finite : ∀ (sign : Sign) (exponent : BitVec Format.binary64.exponentBits)
      (mantissa : BitVec Format.binary64.mantissaBitsWithoutImplicit), exponent ≠ -1#_ →
      UnpackedFloat.unpack .binary64 (packComponents .binary64 sign exponent mantissa) ≠
        .notANumber := by
    intro sign exponent mantissa small
    simp only [UnpackedFloat.unpack, UnpackedFloat.unpackExponent_packComponents, if_neg small]
    split
    · split <;> exact nofun
    · exact nofun
  have infinite : ∀ sign : Sign, UnpackedFloat.unpack .binary64
      (UnpackedFloat.packedInfinity .binary64 sign) ≠ .notANumber := by
    intro sign
    simp [UnpackedFloat.unpack, UnpackedFloat.packedInfinity]
  cases value with
  | notANumber => exact absurd rfl defined
  | infinity sign => exact infinite sign
  | zero sign => exact finite sign _ _ (by decide)
  | finite sign mantissa exponent positive =>
      simp only [UnpackedFloat.pack]
      split
      case isTrue => exact infinite sign
      case isFalse range =>
          split
          · refine finite sign _ _ fun ones => range ?_
            have field := congrArg BitVec.toNat ones
            have top : (-1#_ : BitVec Format.binary64.exponentBits).toNat = 2047 := by decide
            have width : 2 ^ Format.binary64.exponentBits = 2048 := by decide
            rw [top, BitVec.toNat_ofNat, width] at field
            rw [width]
            omega
          · exact finite sign _ _ (by decide)

/-! ## Opposite numbers -/

/-- Two unpacked doubles are opposite numbers, whatever the signs of zeros are. -/
inductive Mirrored : UnpackedFloat → UnpackedFloat → Prop
  | neg (value : UnpackedFloat) (defined : value ≠ .notANumber) : Mirrored value value.neg
  | zeros (sign other : Sign) : Mirrored (.zero sign) (.zero other)

theorem Mirrored.pack {left right : UnpackedFloat} (mirrored : Mirrored left right) :
    Mirrored (UnpackedFloat.unpack .binary64 (UnpackedFloat.pack .binary64 left))
      (UnpackedFloat.unpack .binary64 (UnpackedFloat.pack .binary64 right)) := by
  cases mirrored with
  | neg _ defined =>
      rw [unpack_pack_neg]
      exact .neg _ (unpack_pack_ne_notANumber defined)
  | zeros sign other =>
      simp only [UnpackedFloat.pack, UnpackedFloat.unpack_packedZero]
      exact .zeros sign other

theorem Mirrored.symm {left right : UnpackedFloat} (mirrored : Mirrored left right) :
    Mirrored right left := by
  cases mirrored with
  | neg _ defined =>
      have back : ∀ value : UnpackedFloat, value.neg.neg = value := by
        intro value
        cases value with
        | infinity sign | zero sign => cases sign <;> rfl
        | finite sign => cases sign <;> rfl
        | notANumber => rfl
      have again := Mirrored.neg left.neg (by cases left <;> simp_all [UnpackedFloat.neg])
      rwa [back] at again
  | zeros sign other => exact .zeros other sign

/-- Rounding does not look at the sign. -/
theorem mirrored_round (mantissa : Nat) (exponent : Int) :
    Mirrored (UnpackedFloat.round .binary64 .negative mantissa exponent)
      (UnpackedFloat.round .binary64 .positive mantissa exponent) := by
  simp only [UnpackedFloat.round, UnpackedFloat.roundWithAccuracy]
  split
  case isTrue => exact .zeros _ _
  case isFalse => exact .neg _ nofun

theorem mirrored_normalize (mantissa exponent : Int) :
    Mirrored (UnpackedFloat.normalize .binary64 mantissa exponent .positive)
      (UnpackedFloat.normalize .binary64 (-mantissa) exponent .positive) := by
  unfold UnpackedFloat.normalize
  rcases Int.lt_trichotomy mantissa 0 with below | rfl | above
  · rw [compare_lt_iff_lt.mpr below, compare_gt_iff_gt.mpr (show -mantissa > 0 by omega)]
    exact mirrored_round _ _
  · exact .zeros _ _
  · rw [compare_gt_iff_gt.mpr above, compare_lt_iff_lt.mpr (show -mantissa < 0 by omega)]
    simp only [Int.neg_neg]
    exact (mirrored_round _ _).symm

/-- Two unpacked doubles that are no infinities of one sign. -/
def Apart (left right : UnpackedFloat) : Prop :=
  ∀ sign, ¬(left = .infinity sign ∧ right = .infinity sign)

theorem mirrored_sub {left right : UnpackedFloat} (leftDefined : left ≠ .notANumber)
    (rightDefined : right ≠ .notANumber) (apart : Apart left right) :
    Mirrored (UnpackedFloat.sub .binary64 left right) (UnpackedFloat.sub .binary64 right left) := by
  cases left with
  | notANumber => exact absurd rfl leftDefined
  | infinity sign =>
      cases right with
      | notANumber => exact absurd rfl rightDefined
      | infinity other =>
          cases sign <;> cases other
          · exact absurd ⟨rfl, rfl⟩ (apart .negative)
          · exact .neg (.infinity .negative) nofun
          · exact .neg (.infinity .positive) nofun
          · exact absurd ⟨rfl, rfl⟩ (apart .positive)
      | zero | finite => exact .neg (.infinity sign) nofun
  | zero sign =>
      cases right with
      | notANumber => exact absurd rfl rightDefined
      | infinity other => exact (Mirrored.neg (.infinity other) nofun).symm
      | zero other => cases sign <;> cases other <;> exact .zeros _ _
      | finite other mantissa exponent positive =>
          exact (Mirrored.neg (.finite other mantissa exponent positive) nofun).symm
  | finite sign mantissa exponent positive =>
      cases right with
      | notANumber => exact absurd rfl rightDefined
      | infinity other => exact (Mirrored.neg (.infinity other) nofun).symm
      | zero other => exact .neg (.finite sign mantissa exponent positive) nofun
      | finite other size power some =>
          simp only [UnpackedFloat.sub, min_comm power exponent]
          have turned := mirrored_normalize
            (sign.apply (UnpackedFloat.decreaseExponent mantissa exponent (min exponent power)).1 -
              other.apply (UnpackedFloat.decreaseExponent size power (min exponent power)).1)
            (min exponent power)
          rwa [Int.neg_sub] at turned

/-- Two doubles are opposite numbers, whatever the signs of zeros are. -/
def Opposite (left right : Float) : Prop := Mirrored left.toModel.unpack right.toModel.unpack

/-- Two doubles are the same infinity. -/
def SameInfinity (left right : Float) : Prop :=
  left = right ∧ (left = infinity ∨ left = -infinity)

theorem SameInfinity.symm {left right : Float} (same : SameInfinity left right) :
    SameInfinity right left :=
  ⟨same.1.symm, same.1 ▸ same.2⟩

/-- A double is defined if it is unpacked as something that is. -/
theorem isNaN_eq_false_iff {value : Float} :
    value.isNaN = false ↔ value.toModel.unpack ≠ .notANumber := by
  rw [← Bool.not_eq_true]
  exact not_congr UnpackedFloat.isNaN_iff

theorem eq_of_unpack {left right : Float} (same : left.toModel.unpack = right.toModel.unpack) :
    left = right := by
  have bits := (UnpackedFloat.unpack_inj_of_valid left.toModel.valid right.toModel.valid).mp same
  exact Float.toBits_inj.mp (UInt64.toBitVec_inj.mp bits)

theorem sameInfinity_of_unpack {left right : Float} {sign : Sign}
    (leftInfinite : left.toModel.unpack = .infinity sign)
    (rightInfinite : right.toModel.unpack = .infinity sign) : SameInfinity left right := by
  refine ⟨eq_of_unpack (leftInfinite.trans rightInfinite.symm), ?_⟩
  cases sign with
  | positive => exact .inl (eq_of_unpack leftInfinite)
  | negative => exact .inr (eq_of_unpack leftInfinite)

theorem unpack_sub (left right : Float) :
    (left - right).toModel.unpack = UnpackedFloat.unpack .binary64 (UnpackedFloat.pack .binary64
      (UnpackedFloat.sub .binary64 left.toModel.unpack right.toModel.unpack)) := rfl

/-- A difference and the difference the other way round are opposite numbers. -/
theorem opposite_sub {left right : Float} (leftDefined : left.isNaN = false)
    (rightDefined : right.isNaN = false) (apart : ¬SameInfinity left right) :
    Opposite (left - right) (right - left) := by
  rw [Opposite, unpack_sub, unpack_sub]
  exact (mirrored_sub (isNaN_eq_false_iff.mp leftDefined) (isNaN_eq_false_iff.mp rightDefined)
    fun _ infinite => apart (sameInfinity_of_unpack infinite.1 infinite.2)).pack

/-- The difference of an infinity and itself is undefined. -/
theorem sub_of_sameInfinity {left right : Float} (same : SameInfinity left right) :
    left - right = Float.nan := by
  obtain ⟨rfl, rfl | rfl⟩ := same
  · decide
  · decide

/-! ## Three cases under a tolerance -/

/-- The order of two significands with exponents, the other way round. -/
theorem swap_order (power other : Int) (size least : Nat) :
    (compare other power).then (compare least size) =
      ((compare power other).then (compare size least)).swap := by
  rw [Ordering.swap_then, Int.compare_swap, Nat.compare_swap]

/-- Two doubles compare the other way round as the opposite. -/
theorem compare_swap (left right : UnpackedFloat) :
    UnpackedFloat.compare right left = (UnpackedFloat.compare left right).map Ordering.swap := by
  cases left with
  | notANumber => cases right <;> rfl
  | infinity sign =>
      cases right with
      | infinity other | zero other | finite other => cases sign <;> cases other <;> rfl
      | notANumber => cases sign <;> rfl
  | zero sign =>
      cases right with
      | infinity other | finite other => cases other <;> rfl
      | zero | notANumber => rfl
  | finite sign size power some =>
      cases right with
      | infinity other | zero other => cases sign <;> cases other <;> rfl
      | notANumber => cases sign <;> rfl
      | finite other least lowest positive =>
          cases sign <;> cases other
          · exact congrArg (Option.some ∘ Ordering.swap) (swap_order power lowest size least)
          · rfl
          · rfl
          · exact congrArg Option.some (swap_order power lowest size least)

/-- Defined doubles are comparable: what does not exceed another one is at most that. -/
theorem le_iff_not_lt {left right : UnpackedFloat} (leftDefined : left ≠ .notANumber)
    (rightDefined : right ≠ .notANumber) :
    UnpackedFloat.le left right = !UnpackedFloat.lt right left := by
  obtain ⟨order, compared⟩ : ∃ order, UnpackedFloat.compare left right = some order := by
    cases left with
    | notANumber => exact absurd rfl leftDefined
    | infinity sign | zero sign | finite sign =>
        cases right with
        | notANumber => exact absurd rfl rightDefined
        | infinity other | zero other | finite other =>
            cases sign <;> cases other <;> exact ⟨_, rfl⟩
  rw [UnpackedFloat.le, UnpackedFloat.lt, compare_swap left right, compared]
  cases order <;> rfl

/-- Nothing of zero or less exceeds something of zero or more. -/
theorem not_lt_of_signs {tolerance value : UnpackedFloat}
    (nonnegative : UnpackedFloat.le (.zero .positive) tolerance = true)
    (nonpositive : UnpackedFloat.le value (.zero .positive) = true) :
    UnpackedFloat.lt tolerance value = false := by
  cases tolerance with
  | notANumber => cases nonnegative
  | infinity sign | zero sign | finite sign =>
      cases value with
      | notANumber => cases nonpositive
      | infinity other | zero other | finite other =>
          cases sign <;> cases other <;> first
            | rfl
            | exact absurd nonnegative Bool.false_ne_true
            | exact absurd nonpositive Bool.false_ne_true

/-- Of two opposite numbers at most one exceeds a tolerance, and neither does exactly if their size
is at most the tolerance. -/
structure ThreeCases (tolerance value opposite : UnpackedFloat) : Prop where
  exclusive : UnpackedFloat.lt tolerance value = true →
    UnpackedFloat.lt tolerance opposite = false
  exhaustive : UnpackedFloat.le value.abs tolerance =
    (!UnpackedFloat.lt tolerance value && !UnpackedFloat.lt tolerance opposite)

theorem Mirrored.threeCases {tolerance value opposite : UnpackedFloat}
    (mirrored : Mirrored value opposite)
    (nonnegative : UnpackedFloat.le (.zero .positive) tolerance = true) :
    ThreeCases tolerance value opposite := by
  have defined : tolerance ≠ .notANumber := by
    rintro rfl
    cases nonnegative
  -- One of the two numbers is not above zero, and the other is the size of both.
  have upper : ∀ {value opposite : UnpackedFloat}, value ≠ .notANumber → value.abs = value →
      UnpackedFloat.le opposite (.zero .positive) = true →
      ThreeCases tolerance value opposite := by
    intro value opposite valueDefined size below
    have low := not_lt_of_signs nonnegative below
    refine ⟨fun _ => low, ?_⟩
    rw [size, le_iff_not_lt valueDefined defined, low, Bool.not_false, Bool.and_true]
  have lower : ∀ {value opposite : UnpackedFloat}, opposite ≠ .notANumber →
      value.abs = opposite → UnpackedFloat.le value (.zero .positive) = true →
      ThreeCases tolerance value opposite := by
    intro value opposite oppositeDefined size below
    have low := not_lt_of_signs nonnegative below
    refine ⟨fun above => ?_, ?_⟩
    · rw [low] at above
      cases above
    · rw [size, le_iff_not_lt oppositeDefined defined, low, Bool.not_false, Bool.true_and]
  cases mirrored with
  | zeros sign other =>
      refine ⟨fun _ => not_lt_of_signs nonnegative rfl, ?_⟩
      rw [not_lt_of_signs nonnegative rfl, not_lt_of_signs nonnegative rfl]
      exact nonnegative
  | neg _ valueDefined =>
      cases value with
      | notANumber => exact absurd rfl valueDefined
      | infinity sign | zero sign | finite sign =>
          cases sign
          · exact lower nofun rfl rfl
          · exact upper nofun rfl rfl

theorem lt_notANumber (tolerance : UnpackedFloat) :
    UnpackedFloat.lt tolerance .notANumber = false := by
  cases tolerance <;> rfl

/-! ## Tolerances that are whole numbers -/

/-- What is unpacked of bits with a positive sign is zero or more, unless it is undefined. -/
theorem nonneg_unpack {bits : BitVec Format.binary64.numBits}
    (positive : Sign.ofBitVec (UnpackedFloat.unpackSign bits) = .positive)
    (defined : UnpackedFloat.unpack .binary64 bits ≠ .notANumber) :
    UnpackedFloat.le (.zero .positive) (UnpackedFloat.unpack .binary64 bits) = true := by
  simp only [UnpackedFloat.unpack, positive] at defined ⊢
  split
  case isTrue ones =>
      rw [if_pos ones] at defined
      split
      · rfl
      · rename_i some
        rw [if_neg some] at defined
        exact absurd rfl defined
  case isFalse =>
      split
      · split <;> rfl
      · rfl

/-- Packing keeps what is zero or more so. -/
theorem nonneg_unpack_pack {value : UnpackedFloat}
    (nonnegative : UnpackedFloat.le (.zero .positive) value = true) :
    UnpackedFloat.le (.zero .positive)
      (UnpackedFloat.unpack .binary64 (UnpackedFloat.pack .binary64 value)) = true := by
  have defined : value ≠ .notANumber := by
    rintro rfl
    cases nonnegative
  cases value with
  | notANumber => exact absurd rfl defined
  | zero sign =>
      rw [UnpackedFloat.pack, UnpackedFloat.unpack_packedZero]
      rfl
  | infinity sign =>
      cases sign with
      | positive => decide
      | negative => cases nonnegative
  | finite sign mantissa exponent some =>
      cases sign with
      | negative => cases nonnegative
      | positive =>
          refine nonneg_unpack ?_ (unpack_pack_ne_notANumber defined)
          simp only [UnpackedFloat.pack]
          split
          · rfl
          · split <;> rw [UnpackedFloat.unpackSign_packComponents, Sign.ofBitVec_toBitVec]

/-- Bits up to those of infinity make a double of zero or more. -/
theorem nonneg_ofBits {bits : Nat} (range : bits ≤ infinityBits) :
    0 ≤ Float.ofBits (UInt64.ofNat bits) := by
  have limit : infinityBits = 2047 * 2 ^ 52 := rfl
  have exact : (UInt64.ofNat bits).toBitVec.toNat = bits := by
    rw [UInt64.toNat_toBitVec]
    exact UInt64.toNat_ofNat_of_lt' (show bits < 2 ^ 64 by omega)
  rw [le_iff_unpack]
  refine nonneg_unpack_pack (nonneg_unpack ?_ ?_)
  · have plus : @UnpackedFloat.unpackSign .binary64 (UInt64.ofNat bits).toBitVec = 0#1 := by
      apply BitVec.eq_of_toNat_eq
      rw [UnpackedFloat.unpackSign_def, BitVec.extractLsb'_toNat, Nat.shiftRight_eq_div_pow, exact]
      show bits / 2 ^ 63 % 2 ^ 1 = 0
      omega
    rw [plus]
    rfl
  · -- An undefined double has a mantissa next to the exponent of infinity.
    simp only [UnpackedFloat.unpack]
    split
    case isTrue ones =>
        have field : bits / 2 ^ 52 % 2 ^ 11 = 2047 := by
          have same := congrArg BitVec.toNat ones
          rwa [toNat_unpackExponent, exact] at same
        have none : @UnpackedFloat.unpackMantissa .binary64 (UInt64.ofNat bits).toBitVec = 0#_ := by
          apply BitVec.eq_of_toNat_eq
          rw [UnpackedFloat.unpackMantissa_def, BitVec.extractLsb'_toNat, Nat.shiftRight_zero,
            exact]
          show bits % 2 ^ 52 = 0
          omega
        rw [if_pos none]
        exact nofun
    case isFalse =>
        split
        · split <;> exact nofun
        · exact nofun

theorem ratioBits_le (numerator denominator : Nat) :
    ratioBits numerator denominator ≤ infinityBits := by
  rw [ratioBits]
  split
  · exact Nat.zero_le _
  · exact Nat.min_le_right _ _

/-- The double of a whole number of zero or more is zero or more. -/
theorem nonneg_ofInt {whole : Int} (nonnegative : 0 ≤ whole) : 0 ≤ ofInt whole := by
  have plus : decide (whole < 0) = false := decide_eq_false (by omega)
  simp only [ofInt, ofRatio, plus, Bool.false_eq_true, if_false]
  exact nonneg_ofBits (ratioBits_le _ _)

/-! ## Without subnormal numbers -/

theorem unpack_flush_of_lt {value : Float} (small : value.abs < leastNormal) :
    ∃ sign, (flush value).toModel.unpack = .zero sign := by
  rw [flush, if_pos small, copySign]
  cases signBit value
  · exact ⟨.positive, rfl⟩
  · exact ⟨.negative, rfl⟩

theorem Mirrored.abs_eq {left right : UnpackedFloat} (mirrored : Mirrored left right) :
    right.abs = left.abs := by
  cases mirrored with
  | neg => cases left <;> rfl
  | zeros => rfl

/-- Opposite numbers stay opposite numbers. -/
theorem Opposite.flush {left right : Float} (opposite : Opposite left right) :
    Opposite (flush left) (flush right) := by
  have size : right.abs = left.abs := eq_of_unpack (by
    rw [unpack_abs, unpack_abs]
    exact Mirrored.abs_eq opposite)
  by_cases small : left.abs < leastNormal
  · obtain ⟨sign, first⟩ := unpack_flush_of_lt small
    obtain ⟨other, second⟩ := unpack_flush_of_lt (size ▸ small)
    rw [Opposite, first, second]
    exact .zeros sign other
  · rw [Binary64.flush, Binary64.flush, size, if_neg small, if_neg small]
    exact opposite

/-- A tolerance of zero or more stays one. -/
theorem nonneg_flush {tolerance : Float} (nonnegative : 0 ≤ tolerance) : 0 ≤ flush tolerance := by
  by_cases small : tolerance.abs < leastNormal
  · obtain ⟨sign, zero⟩ := unpack_flush_of_lt small
    rw [le_iff_unpack, zero]
    rfl
  · rwa [flush, if_neg small]

/-- Whether the size of a number is at most a tolerance does not depend on whether the number or its
size loses the subnormal part. -/
theorem flush_abs_le_iff (value tolerance : Float) :
    flush value.abs ≤ tolerance ↔ (flush value).abs ≤ tolerance := by
  have again : value.abs.abs = value.abs := eq_of_unpack (by
    rw [unpack_abs, unpack_abs]
    cases value.toModel.unpack <;> rfl)
  by_cases small : value.abs < leastNormal
  · obtain ⟨sign, first⟩ := unpack_flush_of_lt
      (show value.abs.abs < leastNormal from again.symm ▸ small)
    obtain ⟨other, second⟩ := unpack_flush_of_lt small
    rw [le_iff_unpack, le_iff_unpack, unpack_abs, first, second, UnpackedFloat.le,
      UnpackedFloat.le, UnpackedFloat.abs, compare_zero sign .positive]
  · rw [flush, again, if_neg small, flush, if_neg small]

theorem flush_nan : flush Float.nan = Float.nan := by decide

theorem isNaN_flush {value : Float} (defined : value.isNaN = false) :
    (flush value).isNaN = false := by
  by_cases small : value.abs < leastNormal
  · obtain ⟨sign, zero⟩ := unpack_flush_of_lt small
    rw [isNaN_eq_false_iff, zero]
    exact nofun
  · rwa [flush, if_neg small]

/-- What is infinite without its subnormal part had none. -/
theorem flush_of_infinite {value : Float}
    (infinite : flush value = infinity ∨ flush value = -infinity) : flush value = value := by
  by_cases small : value.abs < leastNormal
  · obtain ⟨sign, zero⟩ := unpack_flush_of_lt small
    rcases infinite with same | same <;> rw [same] at zero <;> cases zero
  · rw [flush, if_neg small]

/-- The same infinities are left of the same infinities only. -/
theorem sameInfinity_flush_iff {left right : Float} :
    SameInfinity (flush left) (flush right) ↔ SameInfinity left right := by
  constructor
  · rintro ⟨same, infinite⟩
    have first := flush_of_infinite infinite
    have second := flush_of_infinite (same ▸ infinite)
    rw [first] at same infinite
    exact ⟨same.trans second, infinite⟩
  · rintro ⟨rfl, rfl | rfl⟩
    · exact ⟨rfl, .inl (by decide)⟩
    · exact ⟨rfl, .inr (by decide)⟩

end Formulary.Binary64
