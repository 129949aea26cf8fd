import Formulary.Decimal.Shortest
import Mathlib

/-!
# Rounding to doubles

A double is the nearest one to the numbers of an interval around it. `Interval.ofFinite` is this
interval, and rounding follows it: a quotient in the interval of a double is rounded to the bits of
this double. Numbers on the two ends are as near to a neighbour, and belong to the double that is
even.

All bounds are about exact rational numbers. A power with an exponent that is split by its sign, as
it is computed, is one power of rational numbers.
-/

namespace Formulary

/-! ## Powers that are split by the sign of the exponent -/

section Powers

variable {exponent : Int}

theorem cast_pow_toNat (base : Nat) (whole : 0 ≤ exponent) :
    ((base ^ exponent.toNat : Nat) : ℚ) = (base : ℚ) ^ exponent := by
  rw [Nat.cast_pow, ← zpow_natCast, Int.toNat_of_nonneg whole]

theorem cast_pow_toNat_neg (base : Nat) (part : ¬0 ≤ exponent) :
    ((base ^ (-exponent).toNat : Nat) : ℚ) = ((base : ℚ) ^ exponent)⁻¹ := by
  rw [cast_pow_toNat base (by omega), zpow_neg]

theorem two_pow_toNat (whole : 0 ≤ exponent) :
    ((2 ^ exponent.toNat : Nat) : ℚ) = 2 ^ exponent := by
  exact_mod_cast cast_pow_toNat 2 whole

theorem two_pow_toNat_neg (part : ¬0 ≤ exponent) :
    ((2 ^ (-exponent).toNat : Nat) : ℚ) = (2 ^ exponent)⁻¹ := by
  exact_mod_cast cast_pow_toNat_neg 2 part

theorem ten_pow_toNat (whole : 0 ≤ exponent) :
    ((10 ^ exponent.toNat : Nat) : ℚ) = 10 ^ exponent := by
  exact_mod_cast cast_pow_toNat 10 whole

theorem ten_pow_toNat_neg (part : ¬0 ≤ exponent) :
    ((10 ^ (-exponent).toNat : Nat) : ℚ) = (10 ^ exponent)⁻¹ := by
  exact_mod_cast cast_pow_toNat_neg 10 part

end Powers

namespace Binary64

/-! ## The nearest whole number -/

/-- A whole number is the nearest one to a value. If another one is as near, it is the even one. -/
structure NearestEven (value : ℚ) (nearest : Nat) : Prop where
  lower : (nearest : ℚ) - 1 / 2 ≤ value
  upper : value ≤ nearest + 1 / 2
  ties : nearest % 2 = 0 ∨ (nearest : ℚ) - 1 / 2 < value ∧ value < nearest + 1 / 2

/-- Of two different whole numbers that are as near, only one is even. -/
theorem NearestEven.le {value : ℚ} {nearest other : Nat} (near : NearestEven value nearest)
    (nearOther : NearestEven value other) : nearest ≤ other := by
  by_contra above
  have lower := near.lower
  have upper := nearOther.upper
  have apart : (other : ℚ) + 1 ≤ nearest := by exact_mod_cast not_le.mp above
  have next : nearest = other + 1 := by
    have : (nearest : ℚ) = other + 1 := by linarith
    exact_mod_cast this
  have even : nearest % 2 = 0 := near.ties.resolve_right fun strict => by linarith [strict.1]
  have evenOther : other % 2 = 0 := nearOther.ties.resolve_right fun strict => by
    linarith [strict.2]
  omega

theorem NearestEven.unique {value : ℚ} {nearest other : Nat} (near : NearestEven value nearest)
    (nearOther : NearestEven value other) : nearest = other :=
  le_antisymm (near.le nearOther) (nearOther.le near)

/-- A quotient is rounded to the nearest whole number. -/
theorem nearestEven_divHalfEven {numerator denominator : Nat} (positive : 0 < denominator) :
    NearestEven ((numerator : ℚ) / denominator) (divHalfEven numerator denominator) := by
  have divided : (0 : ℚ) < denominator := by exact_mod_cast positive
  have quotient : (numerator : ℚ) / denominator =
      (numerator / denominator : Nat) + (numerator % denominator : Nat) / denominator := by
    have division := congrArg (Nat.cast (R := ℚ)) (Nat.div_add_mod numerator denominator)
    rw [Nat.cast_add, Nat.cast_mul] at division
    rw [← division, add_div, mul_div_cancel_left₀ _ divided.ne']
  have below_iff : 2 * (numerator % denominator) < denominator ↔
      ((numerator % denominator : Nat) : ℚ) / denominator < 1 / 2 := by
    rw [div_lt_div_iff₀ divided two_pos, one_mul, mul_comm]
    exact_mod_cast Iff.rfl
  have above_iff : denominator < 2 * (numerator % denominator) ↔
      1 / 2 < ((numerator % denominator : Nat) : ℚ) / denominator := by
    rw [div_lt_div_iff₀ two_pos divided, one_mul, mul_comm]
    exact_mod_cast Iff.rfl
  have rest_nonneg : (0 : ℚ) ≤ (numerator % denominator : Nat) / denominator := by positivity
  have rest_lt : ((numerator % denominator : Nat) : ℚ) / denominator < 1 :=
    (div_lt_one divided).mpr (by exact_mod_cast Nat.mod_lt numerator positive)
  rw [quotient]
  simp only [divHalfEven, below_iff, above_iff]
  generalize ((numerator % denominator : Nat) : ℚ) / denominator = rest at *
  generalize numerator / denominator = floor
  have next : ((floor + 1 : Nat) : ℚ) = floor + 1 := Nat.cast_succ floor
  split
  case isTrue below => exact ⟨by linarith, by linarith, .inr ⟨by linarith, by linarith⟩⟩
  case isFalse notBelow =>
      split
      case isTrue above =>
          exact ⟨by linarith, by linarith, .inr ⟨by linarith, by linarith⟩⟩
      case isFalse notAbove =>
          -- The value is half way between two whole numbers, of which the even one is taken.
          have middle : rest = 1 / 2 := le_antisymm (not_lt.mp notAbove) (not_lt.mp notBelow)
          split
          case isTrue even => exact ⟨by linarith, by linarith, .inl even⟩
          case isFalse odd =>
              exact ⟨by linarith, by linarith, .inl (by omega)⟩

/-! ## The unit in the last place -/

theorem two_zpow_log2_le {number : Nat} (some : 0 < number) :
    (2 : ℚ) ^ (number.log2 : Int) ≤ number := by
  rw [zpow_natCast]
  exact_mod_cast Nat.log2_self_le some.ne'

theorem lt_two_zpow_log2 (number : Nat) : (number : ℚ) < 2 ^ ((number.log2 : Int) + 1) := by
  have above : number < 2 ^ (number.log2 + 1) := Nat.lt_log2_self
  rw [← Nat.cast_one, ← Nat.cast_add, zpow_natCast]
  exact_mod_cast above

/-- The quotient is between the powers of two around the one that the logarithms give. -/
theorem quotient_near {numerator denominator : Nat} (some : 0 < numerator)
    (positive : 0 < denominator) :
    (2 : ℚ) ^ ((numerator.log2 : Int) - denominator.log2 - 1) < numerator / denominator ∧
      (numerator : ℚ) / denominator < 2 ^ ((numerator.log2 : Int) - denominator.log2 + 1) := by
  have divided : (0 : ℚ) < denominator := by exact_mod_cast positive
  have numeratorLow := two_zpow_log2_le some
  have numeratorHigh := lt_two_zpow_log2 numerator
  have denominatorLow := two_zpow_log2_le positive
  have denominatorHigh := lt_two_zpow_log2 denominator
  constructor
  · rw [lt_div_iff₀ divided]
    calc (2 : ℚ) ^ ((numerator.log2 : Int) - denominator.log2 - 1) * denominator
        < 2 ^ ((numerator.log2 : Int) - denominator.log2 - 1) *
            2 ^ ((denominator.log2 : Int) + 1) := by gcongr
      _ = 2 ^ (numerator.log2 : Int) := by
          rw [← zpow_add₀ two_ne_zero]
          congr 1
          ring
      _ ≤ numerator := numeratorLow
  · rw [div_lt_iff₀ divided]
    calc (numerator : ℚ) < 2 ^ ((numerator.log2 : Int) + 1) := numeratorHigh
      _ = 2 ^ ((numerator.log2 : Int) - denominator.log2 + 1) * 2 ^ (denominator.log2 : Int) := by
          rw [← zpow_add₀ two_ne_zero]
          congr 1
          ring
      _ ≤ 2 ^ ((numerator.log2 : Int) - denominator.log2 + 1) * denominator := by gcongr

/-- The unit in the last place of a quotient of which the leading binary digit is known. -/
theorem unitExponent_eq {numerator denominator : Nat} (some : 0 < numerator)
    (positive : 0 < denominator) {place : Int} (lower : (2 : ℚ) ^ place ≤ numerator / denominator)
    (upper : (numerator : ℚ) / denominator < 2 ^ (place + 1)) :
    unitExponent numerator denominator = max (place - 52) (-1074) := by
  have divided : (0 : ℚ) < denominator := by exact_mod_cast positive
  obtain ⟨near, far⟩ := quotient_near some positive
  simp only [unitExponent]
  generalize guess_eq : (numerator.log2 : Int) - denominator.log2 = guess at *
  have least : guess - 1 < place + 1 :=
    (zpow_lt_zpow_iff_right₀ one_lt_two).mp (near.trans upper)
  have most : place < guess + 1 :=
    (zpow_lt_zpow_iff_right₀ one_lt_two).mp (lower.trans_lt far)
  have reaches : (if 0 ≤ guess then denominator * Nat.pow 2 guess.toNat ≤ numerator
      else denominator ≤ numerator * Nat.pow 2 (-guess).toNat) ↔
        (2 : ℚ) ^ guess ≤ numerator / denominator := by
    rw [le_div_iff₀ divided]
    split
    case isTrue whole =>
        rw [← two_pow_toNat whole, mul_comm, Nat.pow_eq]
        exact_mod_cast Iff.rfl
    case isFalse part =>
        have power : (0 : ℚ) < 2 ^ guess := by positivity
        rw [mul_comm ((2 : ℚ) ^ guess), ← le_div_iff₀ power, div_eq_mul_inv,
          ← two_pow_toNat_neg part, Nat.pow_eq]
        exact_mod_cast Iff.rfl
  by_cases reached : (2 : ℚ) ^ guess ≤ numerator / denominator
  · rw [if_pos (reaches.mpr reached)]
    have : guess < place + 1 := (zpow_lt_zpow_iff_right₀ one_lt_two).mp (reached.trans_lt upper)
    omega
  · rw [if_neg (reaches.not.mpr reached)]
    have : place < guess :=
      (zpow_lt_zpow_iff_right₀ one_lt_two).mp (lower.trans_lt (not_le.mp reached))
    omega

/-- The significand that a quotient is rounded to, in units of a power of two. -/
theorem significand_eq {numerator denominator nearest : Nat} {exponent : Int}
    (positive : 0 < denominator)
    (near : NearestEven (numerator / denominator / 2 ^ exponent) nearest) :
    (if 0 ≤ exponent then divHalfEven numerator (denominator * Nat.pow 2 exponent.toNat)
      else divHalfEven (numerator * Nat.pow 2 (-exponent).toNat) denominator) = nearest := by
  rw [Nat.pow_eq, Nat.pow_eq]
  split
  case isTrue whole =>
      have quotient : (numerator : ℚ) / (denominator * 2 ^ exponent.toNat : Nat) =
          numerator / denominator / 2 ^ exponent := by
        rw [Nat.cast_mul, two_pow_toNat whole, div_div]
      have scaled : 0 < denominator * 2 ^ exponent.toNat :=
        Nat.mul_pos positive (Nat.two_pow_pos _)
      exact (nearestEven_divHalfEven scaled).unique (quotient ▸ near)
  case isFalse part =>
      have quotient : ((numerator * 2 ^ (-exponent).toNat : Nat) : ℚ) / denominator =
          numerator / denominator / 2 ^ exponent := by
        rw [Nat.cast_mul, two_pow_toNat_neg part, div_div, mul_comm (denominator : ℚ), ← div_div,
          div_eq_mul_inv (numerator : ℚ) (2 ^ exponent)]
      exact (nearestEven_divHalfEven positive).unique (quotient ▸ near)

/-- The bits of a quotient, by the unit in the last place and the nearest whole number of units. -/
theorem ratioBits_eq {numerator denominator nearest : Nat} {exponent : Int} (some : 0 < numerator)
    (positive : 0 < denominator) (unit : unitExponent numerator denominator = exponent)
    (near : NearestEven (numerator / denominator / 2 ^ exponent) nearest) :
    ratioBits numerator denominator =
      min ((exponent + 1074).toNat * 2 ^ 52 + nearest) infinityBits := by
  simp only [ratioBits, some.ne', positive.ne', or_self, if_false, unit]
  rw [significand_eq positive near, Nat.pow_eq]

/-! ## The parts of a double -/

/-- Whether a significand and an exponent are those of a double. -/
structure Finite.Canonical (parts : Finite) : Prop where
  significand_lt : parts.significand < 2 ^ 53
  exponent_ge : -1074 ≤ parts.exponent
  exponent_le : parts.exponent ≤ 971
  normal : parts.exponent = -1074 ∨ 2 ^ 52 ≤ parts.significand

/-- The bits of a double with given parts, without the sign. -/
def Finite.bits (parts : Finite) : Nat :=
  (parts.exponent + 1074).toNat * 2 ^ 52 + parts.significand

theorem decodeBits?_eq_some {bits : Nat} {parts : Finite}
    (decoded : decodeBits? bits = some parts) :
    bits / 2 ^ 52 % 2 ^ 11 ≠ 2047 ∧ parts.negative = decide (2 ^ 63 ≤ bits) ∧
      (bits / 2 ^ 52 % 2 ^ 11 = 0 ∧ parts.significand = bits % 2 ^ 52 ∧ parts.exponent = -1074 ∨
        bits / 2 ^ 52 % 2 ^ 11 ≠ 0 ∧ parts.significand = 2 ^ 52 + bits % 2 ^ 52 ∧
          parts.exponent = (bits / 2 ^ 52 % 2 ^ 11 : Nat) - 1075) := by
  simp only [decodeBits?, Nat.pow_eq] at decoded
  split at decoded
  · cases decoded
  · split at decoded
    · cases decoded
      exact ⟨‹_›, rfl, .inl ⟨‹_›, rfl, rfl⟩⟩
    · cases decoded
      exact ⟨‹_›, rfl, .inr ⟨‹_›, rfl, rfl⟩⟩

/-- The parts of a double are canonical, and its bits are those of the parts with the sign. -/
theorem canonical_of_decodeBits? {bits : Nat} {parts : Finite}
    (decoded : decodeBits? bits = some parts) :
    parts.Canonical ∧ parts.bits = bits % 2 ^ 63 ∧ parts.negative = decide (2 ^ 63 ≤ bits) := by
  obtain ⟨finite, sign, fields⟩ := decodeBits?_eq_some decoded
  refine ⟨?_, ?_, sign⟩
  · rcases fields with ⟨_, significand, exponent⟩ | ⟨_, significand, exponent⟩
    · constructor <;> omega
    · constructor <;> omega
  · rw [Finite.bits]
    rcases fields with ⟨_, significand, exponent⟩ | ⟨_, significand, exponent⟩
    · omega
    · omega

/-- The size of a finite double. -/
def Finite.magnitude (parts : Finite) : ℚ := parts.significand * 2 ^ parts.exponent

theorem Finite.bits_lt {parts : Finite} (canonical : parts.Canonical) :
    parts.bits < infinityBits := by
  have exponent := canonical.exponent_le
  have significand := canonical.significand_lt
  rw [bits, infinityBits, Nat.pow_eq]
  omega

end Binary64

namespace Decimal

open Binary64 (Finite NearestEven)

/-! ## The interval of a double -/

/-- A ratio as a rational number. -/
def Ratio.value (ratio : Ratio) : ℚ := ratio.numerator / ratio.denominator

theorem Ratio.value_ofBinary (significand : Nat) (exponent : Int) :
    (ofBinary significand exponent).value = significand * 2 ^ exponent := by
  rw [ofBinary, Nat.pow_eq, Nat.pow_eq]
  split
  case isTrue whole =>
      rw [value, Nat.cast_mul, two_pow_toNat whole, Nat.cast_one, div_one]
  case isFalse part =>
      rw [value, two_pow_toNat_neg part, div_inv_eq_mul]

theorem Ratio.denominator_ofBinary (significand : Nat) (exponent : Int) :
    0 < (ofBinary significand exponent).denominator := by
  rw [ofBinary]
  split
  case isTrue => exact Nat.one_pos
  case isFalse => exact Nat.two_pow_pos _

/-- Whether a rational number lies in an interval. -/
def Interval.Contains (interval : Interval) (number : ℚ) : Prop :=
  (interval.low.value < number ∨ interval.closed = true ∧ interval.low.value = number) ∧
    (number < interval.high.value ∨ interval.closed = true ∧ number = interval.high.value)

section Bounds

variable {parts : Finite}

theorem quarter (number : ℚ) (exponent : Int) :
    number * 2 ^ (exponent - 2) = number / 4 * 2 ^ exponent := by
  rw [zpow_sub₀ two_ne_zero]
  ring

/-- The lower end of the interval is half a unit below the double, and a quarter at the least normal
significand. -/
theorem Interval.value_low (some : 0 < parts.significand) :
    (ofFinite parts).low.value =
      (if parts.significand = 2 ^ 52 ∧ -1074 < parts.exponent then (parts.significand : ℚ) - 1 / 4
        else parts.significand - 1 / 2) * 2 ^ parts.exponent := by
  simp only [ofFinite, Ratio.value_ofBinary, quarter, Nat.pow_eq]
  congr 1
  split
  case isTrue =>
      rw [Nat.cast_sub (by omega)]
      push_cast
      ring
  case isFalse =>
      rw [Nat.cast_sub (by omega)]
      push_cast
      ring

/-- The upper end of the interval is half a unit above the double. -/
theorem Interval.value_high (parts : Finite) :
    (ofFinite parts).high.value = ((parts.significand : ℚ) + 1 / 2) * 2 ^ parts.exponent := by
  simp only [ofFinite, Ratio.value_ofBinary, quarter]
  congr 1
  push_cast
  ring

/-- The numbers of the interval are within half a unit of the double, and on the ends only if its
significand is even. -/
theorem Interval.Contains.near {number : ℚ} (contains : (Interval.ofFinite parts).Contains number)
    (some : 0 < parts.significand) :
    ((parts.significand : ℚ) - 1 / 2) * 2 ^ parts.exponent ≤ number ∧
      number ≤ (parts.significand + 1 / 2) * 2 ^ parts.exponent ∧
      (parts.significand % 2 = 0 ∨
        ((parts.significand : ℚ) - 1 / 2) * 2 ^ parts.exponent < number ∧
          number < (parts.significand + 1 / 2) * 2 ^ parts.exponent) := by
  have power : (0 : ℚ) < 2 ^ parts.exponent := by positivity
  have least : ((parts.significand : ℚ) - 1 / 2) * 2 ^ parts.exponent ≤
      (Interval.ofFinite parts).low.value := by
    rw [Interval.value_low some]
    gcongr
    split <;> linarith
  have even : (Interval.ofFinite parts).closed = true → parts.significand % 2 = 0 := by
    simp [Interval.ofFinite]
  obtain ⟨below, above⟩ := contains
  rw [Interval.value_high] at above
  refine ⟨?_, ?_, ?_⟩
  · rcases below with strict | ⟨_, same⟩
    · exact least.trans strict.le
    · exact least.trans same.le
  · rcases above with strict | ⟨_, same⟩
    · exact strict.le
    · exact same.le
  · rcases below with strict | ⟨closed, _⟩
    · rcases above with strictAbove | ⟨closed, _⟩
      · exact .inr ⟨least.trans_lt strict, strictAbove⟩
      · exact .inl (even closed)
    · exact .inl (even closed)

/-- The double is the nearest whole number of units to the numbers of its interval. -/
theorem Interval.Contains.nearestEven {number : ℚ}
    (contains : (Interval.ofFinite parts).Contains number) (some : 0 < parts.significand) :
    NearestEven (number / 2 ^ parts.exponent) parts.significand := by
  have power : (0 : ℚ) < 2 ^ parts.exponent := by positivity
  obtain ⟨lower, upper, ties⟩ := contains.near some
  refine ⟨(le_div_iff₀ power).mpr lower, (div_le_iff₀ power).mpr upper, ?_⟩
  rcases ties with even | ⟨above, below⟩
  · exact .inl even
  · exact .inr ⟨(lt_div_iff₀ power).mpr above, (div_lt_iff₀ power).mpr below⟩

/-- What is less than a quarter of a unit away from a double is in its interval. -/
theorem contains_of_near (some : 0 < parts.significand) {number : ℚ}
    (near : |number - parts.magnitude| < 2 ^ parts.exponent / 4) :
    (Interval.ofFinite parts).Contains number := by
  have power : (0 : ℚ) < 2 ^ parts.exponent := by positivity
  obtain ⟨below, above⟩ := abs_lt.mp near
  rw [Finite.magnitude] at below above
  refine ⟨.inl ?_, .inl ?_⟩
  · rw [Interval.value_low some]
    split <;> linarith
  · rw [Interval.value_high]
    linarith

theorem Interval.Contains.low_le {interval : Interval} {number : ℚ}
    (contains : interval.Contains number) : interval.low.value ≤ number := by
  rcases contains.1 with strict | ⟨_, same⟩
  · exact strict.le
  · exact same.le

theorem Interval.Contains.pos {number : ℚ} (contains : (Interval.ofFinite parts).Contains number)
    (some : 0 < parts.significand) : 0 < number := by
  have one : (1 : ℚ) ≤ parts.significand := by exact_mod_cast some
  have half : (0 : ℚ) < parts.significand - 1 / 2 := by linarith
  exact lt_of_lt_of_le (by positivity) (contains.near some).1

/-- The numbers of the interval have no more than fifty-three binary digits before the unit. -/
theorem Interval.Contains.lt_two_zpow {number : ℚ}
    (contains : (Interval.ofFinite parts).Contains number) (some : 0 < parts.significand)
    (canonical : parts.Canonical) : number < 2 ^ (parts.exponent + 53) := by
  have digits : (parts.significand : ℚ) + 1 ≤ 2 ^ 53 := by
    exact_mod_cast canonical.significand_lt
  calc number ≤ (parts.significand + 1 / 2) * 2 ^ parts.exponent := (contains.near some).2.1
    _ < 2 ^ (53 : Int) * 2 ^ parts.exponent := by
        gcongr
        norm_num at digits ⊢
        linarith
    _ = 2 ^ (parts.exponent + 53) := by rw [zpow_add₀ two_ne_zero, mul_comm]

/-- Only the least normal significand has numbers below its leading binary digit in the interval,
and these are within a quarter of a unit. -/
theorem Interval.Contains.of_short {number : ℚ}
    (contains : (Interval.ofFinite parts).Contains number) (some : 0 < parts.significand)
    (canonical : parts.Canonical) (normal : parts.exponent ≠ -1074)
    (short : number < 2 ^ (parts.exponent + 52)) :
    parts.significand = 2 ^ 52 ∧ (2 ^ 52 - 1 / 4) * 2 ^ parts.exponent ≤ number := by
  have power : (0 : ℚ) < 2 ^ parts.exponent := by positivity
  have significand : parts.significand = 2 ^ 52 := by
    have least := canonical.normal.resolve_left normal
    have scaled : ((parts.significand : ℚ) - 1 / 2) * 2 ^ parts.exponent <
        2 ^ 52 * 2 ^ parts.exponent := by
      rw [zpow_add₀ two_ne_zero, mul_comm] at short
      exact (contains.near some).1.trans_lt short
    have units := lt_of_mul_lt_mul_right scaled power.le
    have most : (parts.significand : ℚ) < 2 ^ 52 + 1 := by linarith
    have most : parts.significand < 2 ^ 52 + 1 := by exact_mod_cast most
    omega
  have above_least : -1074 < parts.exponent := lt_of_le_of_ne canonical.exponent_ge normal.symm
  have low := contains.low_le
  rw [Interval.value_low some, if_pos ⟨significand, above_least⟩, significand] at low
  exact ⟨significand, by exact_mod_cast low⟩

section Quotients

variable {numerator denominator : Nat}

/-- A quotient that reaches the leading binary digit of a normal double has the unit of the double,
and all subnormal doubles have the same unit. -/
theorem unitExponent_of_contains (canonical : parts.Canonical) (some : 0 < parts.significand)
    (numerator_pos : 0 < numerator) (positive : 0 < denominator)
    (contains : (Interval.ofFinite parts).Contains (numerator / denominator))
    (leading : parts.exponent = -1074 ∨
      (2 : ℚ) ^ (parts.exponent + 52) ≤ numerator / denominator) :
    Binary64.unitExponent numerator denominator = parts.exponent := by
  obtain ⟨place, least, most⟩ := exists_mem_Ico_zpow (contains.pos some) one_lt_two
  rw [Binary64.unitExponent_eq numerator_pos positive least most]
  have below : place < parts.exponent + 53 :=
    (zpow_lt_zpow_iff_right₀ one_lt_two).mp
      (least.trans_lt (contains.lt_two_zpow some canonical))
  have lowest := canonical.exponent_ge
  rcases leading with subnormal | reached
  · omega
  · have above : parts.exponent + 52 < place + 1 :=
      (zpow_lt_zpow_iff_right₀ one_lt_two).mp (reached.trans_lt most)
    omega

/-- Just below a power of two the unit is half as large, and rounding carries into the exponent. -/
theorem ratioBits_of_short (canonical : parts.Canonical) (some : 0 < parts.significand)
    (numerator_pos : 0 < numerator) (positive : 0 < denominator)
    (contains : (Interval.ofFinite parts).Contains (numerator / denominator))
    (normal : parts.exponent ≠ -1074)
    (short : (numerator : ℚ) / denominator < 2 ^ (parts.exponent + 52)) :
    Binary64.ratioBits numerator denominator = parts.bits := by
  obtain ⟨significand, low⟩ := contains.of_short some canonical normal short
  have lowest := canonical.exponent_ge
  have unit : Binary64.unitExponent numerator denominator = parts.exponent - 1 := by
    have reached : (2 : ℚ) ^ (parts.exponent + 51) ≤ numerator / denominator := by
      refine le_trans ?_ low
      rw [zpow_add₀ two_ne_zero, mul_comm]
      gcongr
      norm_num
    rw [Binary64.unitExponent_eq numerator_pos positive reached (by rwa [add_assoc])]
    omega
  have half : (2 : ℚ) ^ parts.exponent = 2 * 2 ^ (parts.exponent - 1) := by
    rw [zpow_sub_one₀ two_ne_zero]
    ring
  have power : (0 : ℚ) < 2 ^ (parts.exponent - 1) := by positivity
  have carried : NearestEven (numerator / denominator / 2 ^ (parts.exponent - 1)) (2 ^ 53) := by
    rw [zpow_add₀ two_ne_zero, half] at short
    rw [half] at low
    refine ⟨(le_div_iff₀ power).mpr ?_, (div_le_iff₀ power).mpr ?_, .inl (by decide)⟩
    · push_cast
      linarith
    · push_cast
      linarith
  have range := Finite.bits_lt canonical
  rw [Binary64.ratioBits_eq numerator_pos positive unit carried]
  rw [Finite.bits, significand] at range ⊢
  omega

/-- A quotient in the interval of a double is rounded to this double. -/
theorem ratioBits_of_contains (canonical : parts.Canonical) (some : 0 < parts.significand)
    (positive : 0 < denominator)
    (contains : (Interval.ofFinite parts).Contains (numerator / denominator)) :
    Binary64.ratioBits numerator denominator = parts.bits := by
  have numerator_pos : 0 < numerator := by
    have quotient := contains.pos some
    by_contra none
    obtain rfl : numerator = 0 := by omega
    simp at quotient
  by_cases leading : parts.exponent = -1074 ∨
      (2 : ℚ) ^ (parts.exponent + 52) ≤ numerator / denominator
  · have unit := unitExponent_of_contains canonical some numerator_pos positive contains leading
    rw [Binary64.ratioBits_eq numerator_pos positive unit (contains.nearestEven some)]
    exact min_eq_left (Finite.bits_lt canonical).le
  · obtain ⟨normal, short⟩ := not_or.mp leading
    exact ratioBits_of_short canonical some numerator_pos positive contains normal
      (not_le.mp short)

end Quotients

end Bounds

end Decimal

end Formulary
