import Formulary.Proofs.Rounding

/-!
# The shortest digits of a double

The digits that are found for a double lie in its interval, whichever grid they are found on. The
search for a hit may fail only before the grids are much finer than the interval, so its last resort
is a hit as well. What this takes is that the first digit is not looked for too high: the decimal
approximation of the binary logarithm is good enough for all exponents that doubles have.
-/

namespace Formulary.Decimal

open Binary64 (Finite)

/-! ## Comparisons on a decimal grid -/

/-- Natural numbers compare as what they are multiples of. -/
theorem compare_multiples {first second : Nat} {left right factor : ℚ} (positive : 0 < factor)
    (first_eq : (first : ℚ) = left * factor) (second_eq : (second : ℚ) = right * factor) :
    compare first second = compare left right := by
  rcases lt_trichotomy left right with less | rfl | greater
  · have : (first : ℚ) < second := by
      rw [first_eq, second_eq]
      exact mul_lt_mul_of_pos_right less positive
    rw [compare_lt_iff_lt.mpr less, compare_lt_iff_lt]
    exact_mod_cast this
  · have : (first : ℚ) = second := first_eq.trans second_eq.symm
    rw [compare_eq_iff_eq.mpr rfl, compare_eq_iff_eq]
    exact_mod_cast this
  · have : (second : ℚ) < first := by
      rw [first_eq, second_eq]
      exact mul_lt_mul_of_pos_right greater positive
    rw [compare_gt_iff_gt.mpr greater, compare_gt_iff_gt]
    exact_mod_cast this

/-- A number of the decimal grid is compared with a ratio by their exact values. -/
theorem compareScaled_eq (count : Nat) (exponent : Int) {ratio : Ratio}
    (positive : 0 < ratio.denominator) :
    compareScaled count exponent ratio.numerator ratio.denominator =
      compare ((count : ℚ) * 10 ^ exponent) ratio.value := by
  have divided : (0 : ℚ) < ratio.denominator := by exact_mod_cast positive
  have numerator : (ratio.numerator : ℚ) = ratio.value * ratio.denominator :=
    (div_mul_cancel₀ _ divided.ne').symm
  rw [compareScaled, Nat.pow_eq, Nat.pow_eq]
  split
  case isTrue whole =>
      refine compare_multiples divided ?_ numerator
      rw [Nat.cast_mul, Nat.cast_mul, ten_pow_toNat whole]
  case isFalse part =>
      have power : (0 : ℚ) < 10 ^ exponent := by positivity
      refine compare_multiples (div_pos divided power) ?_ ?_
      · rw [Nat.cast_mul]
        field_simp
      · rw [Nat.cast_mul, ten_pow_toNat_neg part, numerator]
        field_simp

theorem Interval.denominator_pos (parts : Finite) :
    0 < (ofFinite parts).low.denominator ∧ 0 < (ofFinite parts).high.denominator :=
  ⟨Ratio.denominator_ofBinary _ _, Ratio.denominator_ofBinary _ _⟩

/-- A number of the decimal grid is found in the interval of a double exactly if it is there. -/
theorem Interval.holds_iff {parts : Finite} {count : Nat} {exponent : Int} :
    (ofFinite parts).holds count exponent = true ↔
      (ofFinite parts).Contains ((count : ℚ) * 10 ^ exponent) := by
  obtain ⟨low, high⟩ := denominator_pos parts
  simp only [holds, compareScaled_eq count exponent low, compareScaled_eq count exponent high,
    Contains, Bool.and_eq_true, Bool.or_eq_true, beq_iff_eq, compare_gt_iff_gt, compare_lt_iff_lt,
    compare_eq_iff_eq]
  tauto

/-! ## Hits -/

/-- Rounding on a decimal grid gives one of the two neighbours. -/
theorem Ratio.roundAt_mem (ratio : Ratio) (exponent : Int) :
    ratio.roundAt exponent = ratio.floorAt exponent ∨
      ratio.roundAt exponent = ratio.floorAt exponent + 1 := by
  unfold roundAt floorAt
  split <;> exact Binary64.divHalfEven_mem _ _

/-- What is hit is in the interval. -/
theorem holds_of_hitAt? {interval : Interval} {value : Ratio} {exponent : Int} {count : Nat}
    (hit : hitAt? interval value exponent = some count) :
    interval.holds count exponent = true := by
  simp only [hitAt?] at hit
  split at hit
  case isTrue both =>
      simp only [Bool.and_eq_true] at both
      cases hit
      rcases value.roundAt_mem exponent with same | next
      · rw [same]
        exact both.1.1
      · rw [next]
        exact both.2
  case isFalse =>
      split at hit
      case isTrue low =>
          cases hit
          exact (Bool.and_eq_true_iff.mp low).1
      case isFalse =>
          split at hit
          case isTrue high =>
              cases hit
              exact high
          case isFalse => cases hit

/-- Rounding on a decimal grid goes no farther than half a unit. -/
theorem Ratio.roundAt_near {ratio : Ratio} (positive : 0 < ratio.denominator) (exponent : Int) :
    |(ratio.roundAt exponent : ℚ) * 10 ^ exponent - ratio.value| ≤ 10 ^ exponent / 2 := by
  have power : (0 : ℚ) < 10 ^ exponent := by positivity
  obtain ⟨numerator, denominator, some, rounded, quotient⟩ : ∃ numerator denominator : Nat,
      0 < denominator ∧ ratio.roundAt exponent = Binary64.divHalfEven numerator denominator ∧
        (numerator : ℚ) / denominator = ratio.value / 10 ^ exponent := by
    rw [roundAt, Nat.pow_eq, Nat.pow_eq]
    split
    case isTrue whole =>
        refine ⟨_, _, Nat.mul_pos positive (Nat.pow_pos (by decide)), rfl, ?_⟩
        rw [Nat.cast_mul, ten_pow_toNat whole, value, div_div]
    case isFalse part =>
        refine ⟨_, _, positive, rfl, ?_⟩
        rw [Nat.cast_mul, ten_pow_toNat_neg part, value]
        ring
  obtain ⟨below, above⟩ := @Binary64.divHalfEven_near numerator _ some
  rw [← rounded] at below above
  have divided : (0 : ℚ) < denominator := by exact_mod_cast some
  have least : (numerator : ℚ) / denominator ≤ ratio.roundAt exponent + 1 / 2 := by
    rw [div_le_iff₀ divided]
    have : (2 * numerator : ℚ) ≤ denominator * (2 * ratio.roundAt exponent + 1) := by
      exact_mod_cast below
    linarith
  have most : (ratio.roundAt exponent : ℚ) - 1 / 2 ≤ numerator / denominator := by
    rw [le_div_iff₀ divided]
    have : (denominator * (2 * ratio.roundAt exponent) : ℚ) ≤ 2 * numerator + denominator := by
      exact_mod_cast above
    linarith
  rw [quotient, div_le_iff₀ power] at least
  rw [quotient, le_div_iff₀ power] at most
  rw [abs_le]
  constructor <;> linarith

/-! ## The first digit -/

/-- A power of ten is above a power of two if the approximate logarithm says so. -/
theorem two_pow_le_ten_pow {place power : Nat} (enough : place * 30103 ≤ power * 100000) :
    2 ^ place ≤ 10 ^ power := by
  have logarithm : 2 ^ 100000 ≤ 10 ^ 30103 := by decide +kernel
  refine (Nat.pow_le_pow_iff_left (n := 100000) (by decide)).mp ?_
  calc (2 ^ place) ^ 100000 = (2 ^ 100000) ^ place := by
        rw [← Nat.pow_mul, ← Nat.pow_mul, Nat.mul_comm]
    _ ≤ (10 ^ 30103) ^ place := Nat.pow_le_pow_left logarithm place
    _ = 10 ^ (place * 30103) := by rw [← Nat.pow_mul, Nat.mul_comm]
    _ ≤ 10 ^ (power * 100000) := Nat.pow_le_pow_right (by decide) enough
    _ = (10 ^ power) ^ 100000 := pow_mul 10 power 100000

/-- A power of ten is hardly above a power of two if the approximate logarithm says so. The
approximation is a little too large, which does not show before it is used a hundred thousand
times. -/
theorem ten_pow_le_two_pow {place power : Nat} (few : power * 100000 ≤ place * 30103)
    (small : place ≤ 100000) : 10 ^ power ≤ 2 * 2 ^ place := by
  have logarithm : 10 ^ 30103 ≤ 2 * 2 ^ 100000 := by decide +kernel
  have some : 100000 ≠ 0 := by decide
  generalize 100000 = times at *
  refine (Nat.pow_le_pow_iff_left some).mp ?_
  calc (10 ^ power) ^ times = 10 ^ (power * times) := (pow_mul 10 power times).symm
    _ ≤ 10 ^ (place * 30103) := Nat.pow_le_pow_right (by decide) few
    _ = (10 ^ 30103) ^ place := by rw [← pow_mul, Nat.mul_comm]
    _ ≤ (2 * 2 ^ times) ^ place := Nat.pow_le_pow_left logarithm place
    _ = 2 ^ place * (2 ^ place) ^ times := by
        rw [mul_pow, ← pow_mul, ← pow_mul, Nat.mul_comm times]
    _ ≤ 2 ^ times * (2 ^ place) ^ times :=
        Nat.mul_le_mul_right _ (Nat.pow_le_pow_right (by decide) small)
    _ = (2 * 2 ^ place) ^ times := (mul_pow 2 (2 ^ place) times).symm

/-- The estimate of the first decimal digit is not too high, for all exponents of doubles. -/
theorem ten_pow_estimate_le {binary : Int} (most : binary < 1100) :
    (10 : ℚ) ^ (binary * 30103 / 100000 - 1) ≤ 2 ^ (binary - 1) := by
  rw [zpow_sub_one₀ (by norm_num), zpow_sub_one₀ two_ne_zero, mul_inv_le_iff₀ (by norm_num)]
  obtain ⟨place, rfl | rfl⟩ := binary.eq_nat_or_neg
  · have estimate : ((place : Int) * 30103 / 100000) = (place * 30103 / 100000 : Nat) := by omega
    have above : 10 ^ (place * 30103 / 100000) ≤ 2 * 2 ^ place :=
      ten_pow_le_two_pow (by omega) (by omega)
    have above_cast : (10 : ℚ) ^ (place * 30103 / 100000) ≤ 2 * 2 ^ place := by
      exact_mod_cast above
    have positive : (0 : ℚ) < 2 ^ place := by positivity
    rw [estimate, zpow_natCast, zpow_natCast]
    linarith
  · have estimate : (-(place : Int) * 30103 / 100000) =
        -((place * 30103 + 99999) / 100000 : Nat) := by omega
    have below : 2 ^ place ≤ 10 ^ ((place * 30103 + 99999) / 100000) :=
      two_pow_le_ten_pow (by omega)
    have below_cast : (2 : ℚ) ^ place ≤ 10 ^ ((place * 30103 + 99999) / 100000) := by
      exact_mod_cast below
    rw [estimate, zpow_neg, zpow_neg, zpow_natCast, zpow_natCast]
    have inverse := inv_anti₀ (by positivity) below_cast
    have positive : (0 : ℚ) < (2 ^ place)⁻¹ := by positivity
    linarith

/-- The first digit of a ratio is not looked for too high, nor far below the least double. -/
theorem Ratio.leadingExponent_spec {ratio : Ratio} (some : 0 < ratio.numerator)
    (positive : 0 < ratio.denominator)
    (least : -1100 < (ratio.numerator.log2 : Int) - ratio.denominator.log2)
    (most : (ratio.numerator.log2 : Int) - ratio.denominator.log2 < 1100) :
    (10 : ℚ) ^ ratio.leadingExponent ≤ ratio.value ∧ -340 < ratio.leadingExponent := by
  have reached {exponent : Int} (tested : (compareScaled 1 exponent ratio.numerator
      ratio.denominator != .gt) = true) : (10 : ℚ) ^ exponent ≤ ratio.value := by
    rw [compareScaled_eq 1 exponent positive, bne_iff_ne, Ne, compare_gt_iff_gt, not_lt,
      Nat.cast_one, one_mul] at tested
    exact tested
  have estimate := ten_pow_estimate_le most
  have near := (Binary64.quotient_near some positive).1
  simp only [leadingExponent]
  generalize (ratio.numerator.log2 : Int) - ratio.denominator.log2 = binary at *
  split
  case isTrue first => exact ⟨reached first, by omega⟩
  case isFalse =>
      split
      case isTrue second => exact ⟨reached second, by omega⟩
      case isFalse => exact ⟨estimate.trans near.le, by omega⟩

section Parts

variable {parts : Finite}

theorem Ratio.numerator_ofBinary {significand : Nat} (some : 0 < significand) (exponent : Int) :
    0 < (ofBinary significand exponent).numerator := by
  rw [ofBinary]
  split
  case isTrue => exact Nat.mul_pos some (Nat.two_pow_pos _)
  case isFalse => exact some

/-- A double is between the powers of two around the range of doubles. -/
theorem magnitude_range (canonical : parts.Canonical) (some : 0 < parts.significand) :
    (2 : ℚ) ^ (-1074 : Int) ≤ parts.magnitude ∧ parts.magnitude < 2 ^ (1024 : Int) := by
  have power : (0 : ℚ) < 2 ^ parts.exponent := by positivity
  have one : (1 : ℚ) ≤ parts.significand := by exact_mod_cast some
  have small : (parts.significand : ℚ) < 2 ^ (53 : Int) := by
    exact_mod_cast canonical.significand_lt
  constructor
  · calc (2 : ℚ) ^ (-1074 : Int) ≤ 2 ^ parts.exponent :=
          zpow_le_zpow_right₀ one_le_two canonical.exponent_ge
      _ ≤ (parts.significand : ℚ) * 2 ^ parts.exponent := le_mul_of_one_le_left power.le one
  · have exponent_le := canonical.exponent_le
    calc (parts.significand : ℚ) * 2 ^ parts.exponent
        < 2 ^ (53 : Int) * 2 ^ parts.exponent := by gcongr
      _ = 2 ^ (53 + parts.exponent) := (zpow_add₀ two_ne_zero _ _).symm
      _ ≤ 2 ^ (1024 : Int) := zpow_le_zpow_right₀ one_le_two (by omega)

/-- The first digit of a double is not looked for too high, nor far below the least one. -/
theorem leadingExponent_spec (canonical : parts.Canonical) (some : 0 < parts.significand) :
    (10 : ℚ) ^ (Ratio.ofBinary parts.significand parts.exponent).leadingExponent ≤
        parts.magnitude ∧
      -340 < (Ratio.ofBinary parts.significand parts.exponent).leadingExponent := by
  have value := Ratio.value_ofBinary parts.significand parts.exponent
  have numerator := Ratio.numerator_ofBinary some parts.exponent
  have denominator := Ratio.denominator_ofBinary parts.significand parts.exponent
  generalize Ratio.ofBinary parts.significand parts.exponent = ratio at *
  obtain ⟨lower, upper⟩ := magnitude_range canonical some
  obtain ⟨near, far⟩ := Binary64.quotient_near numerator denominator
  rw [← Ratio.value, value] at near far
  have most := (zpow_lt_zpow_iff_right₀ (one_lt_two (α := ℚ))).mp (near.trans upper)
  have least := (zpow_lt_zpow_iff_right₀ (one_lt_two (α := ℚ))).mp (lower.trans_lt far)
  rw [Finite.magnitude, ← value]
  exact ratio.leadingExponent_spec numerator denominator (by omega) (by omega)

/-- A grid of which the first digit of a double is the eighteenth from behind is so fine that its
nearest number is in the interval of the double. -/
theorem contains_roundAt (canonical : parts.Canonical) (some : 0 < parts.significand)
    {leading : Int} (reached : (10 : ℚ) ^ leading ≤ parts.magnitude) :
    (Interval.ofFinite parts).Contains
      (((Ratio.ofBinary parts.significand parts.exponent).roundAt (leading - 17) : ℚ) *
        10 ^ (leading - 17)) := by
  have power : (0 : ℚ) < 2 ^ parts.exponent := by positivity
  have near := Ratio.roundAt_near (Ratio.denominator_ofBinary parts.significand parts.exponent)
    (leading - 17)
  rw [Ratio.value_ofBinary] at near
  refine contains_of_near some (near.trans_lt ?_)
  have small : (parts.significand : ℚ) < 2 ^ 53 := by exact_mod_cast canonical.significand_lt
  have size : parts.magnitude < 2 ^ 53 * 2 ^ parts.exponent := by
    rw [Finite.magnitude]
    gcongr
  have shifted : (10 : ℚ) ^ (leading - 17) = 10 ^ leading / 10 ^ 17 := by
    rw [zpow_sub₀ (by norm_num)]
    norm_num
  rw [shifted]
  norm_num at size ⊢
  linarith

/-- The shortest digits of a double are those of a number in its interval. -/
theorem exists_shortest (canonical : parts.Canonical) (some : 0 < parts.significand) :
    ∃ (count : Nat) (exponent : Int), shortest parts = Digits.ofScaled count exponent ∧
      -360 < exponent ∧ (Interval.ofFinite parts).Contains (count * 10 ^ exponent) := by
  obtain ⟨reached, lowest⟩ := leadingExponent_spec canonical some
  have last := contains_roundAt canonical some reached
  simp only [shortest]
  generalize (Ratio.ofBinary parts.significand parts.exponent).leadingExponent = leading at *
  cases search : (List.range 17).findSome? fun (more : Nat) =>
      (hitAt? (Interval.ofFinite parts) (Ratio.ofBinary parts.significand parts.exponent)
        (leading - (more : Int))).map fun count =>
          Digits.ofScaled count (leading - (more : Int)) with
  | none => exact ⟨_, _, rfl, by omega, last⟩
  | some found =>
      obtain ⟨more, member, mapped⟩ := List.exists_of_findSome?_eq_some search
      obtain ⟨count, hit, rfl⟩ := Option.map_eq_some_iff.mp mapped
      have few := List.mem_range.mp member
      exact ⟨count, _, rfl, by omega, Interval.holds_iff.mp (holds_of_hitAt? hit)⟩

end Parts

end Formulary.Decimal
