import Formulary.Decimal.Layout
import Formulary.Decimal.Literal
import Formulary.Proofs.ShortestDigits

/-!
# Texts of doubles

The text of a finite double without a sign is one literal, and the literal gives the double back.
The layouts differ in where the point stands and in whether an exponent follows, but the digits and
the exponent that are read stand for the number that was written. This number is in the interval of
the double, so rounding leads back to it.
-/

namespace Formulary.Decimal

open Binary64 (Finite)
open Formulary.Text (isPlainDigit plainDigitValue)

/-! ## Words of digits -/

/-- Whether a text consists of digits. -/
def AllDigits (text : List Char) : Prop :=
  ∀ character ∈ text, isPlainDigit character = true

theorem takeWhile_digits {word rest : List Char} (digits : AllDigits word)
    (ends : ∀ next ∈ rest.head?, isPlainDigit next = false) :
    (word ++ rest).takeWhile isPlainDigit = word := by
  rw [List.takeWhile_append_of_pos digits]
  cases rest with
  | nil => simp
  | cons next more => simp [ends next rfl]

theorem digitsValue_append (first second : List Char) :
    digitsValue (first ++ second) =
      digitsValue first * 10 ^ second.length + digitsValue second := by
  have snoc (word : List Char) (last : Char) :
      digitsValue (word ++ [last]) = 10 * digitsValue word + plainDigitValue last := by
    simp [digitsValue]
  induction second using List.reverseRecOn with
  | nil => simp [digitsValue]
  | append_singleton others last inductionHypothesis =>
      rw [← List.append_assoc, snoc, snoc, inductionHypothesis, List.length_append,
        List.length_singleton]
      ring

theorem digitsValue_zeros (count : Nat) : digitsValue (List.replicate count '0') = 0 := by
  induction count with
  | zero => rfl
  | succ count inductionHypothesis =>
      rw [List.replicate_succ', digitsValue_append, inductionHypothesis]
      rfl

theorem allDigits_zeros (count : Nat) : AllDigits (List.replicate count '0') := by
  intro character member
  rw [List.eq_of_mem_replicate member]
  rfl

theorem digitChar_spec {digit : Nat} (small : digit < 10) :
    isPlainDigit digit.digitChar = true ∧ plainDigitValue digit.digitChar = digit := by
  interval_cases digit <;> decide

theorem allDigits_digitText {digits : List Nat} (small : ∀ digit ∈ digits, digit < 10) :
    AllDigits (digitText digits) := by
  intro character member
  obtain ⟨digit, inside, rfl⟩ := List.mem_map.mp member
  exact (digitChar_spec (small digit inside)).1

theorem naturalDigits_lt (value : Nat) : ∀ digit ∈ naturalDigits value, digit < 10 := by
  fun_induction naturalDigits value with
  | case1 => exact fun _ member => nomatch member
  | case2 value some inductionHypothesis =>
      refine List.forall_mem_append.mpr ⟨inductionHypothesis, ?_⟩
      exact List.forall_mem_singleton.mpr (Nat.mod_lt _ (by decide))

/-- The digits of a natural number stand for it. -/
theorem digitsValue_naturalDigits (value : Nat) :
    digitsValue (digitText (naturalDigits value)) = value := by
  fun_induction naturalDigits value with
  | case1 => rfl
  | case2 value some inductionHypothesis =>
      have last : plainDigitValue (value % 10).digitChar = value % 10 :=
        (digitChar_spec (Nat.mod_lt _ (by decide))).2
      have single : digitsValue (digitText [value % 10]) = value % 10 := by
        simpa [digitsValue, digitText] using last
      rw [digitText, List.map_append, ← digitText, ← digitText, digitsValue_append,
        inductionHypothesis, single]
      simp [digitText]
      omega

theorem naturalText_spec (value : Nat) :
    AllDigits (naturalText value) ∧ digitsValue (naturalText value) = value ∧
      naturalText value ≠ [] := by
  rw [naturalText]
  split
  case isTrue zero =>
      subst zero
      exact ⟨List.forall_mem_singleton.mpr (by decide), rfl, List.cons_ne_nil _ _⟩
  case isFalse some =>
      refine ⟨allDigits_digitText (naturalDigits_lt value), digitsValue_naturalDigits value, ?_⟩
      intro empty
      have := digitsValue_naturalDigits value
      rw [empty] at this
      exact some this.symm

/-! ## Numbers given by their digits -/

/-- Whether there are digits, all of them decimal. -/
structure Digits.Proper (number : Digits) : Prop where
  some : number.digits ≠ []
  small : ∀ digit ∈ number.digits, digit < 10

/-- The exponent of the last digit. -/
def Digits.lastExponent (number : Digits) : Int :=
  number.exponent + 1 - number.digits.length

/-- The number that digits stand for. -/
def Digits.value (number : Digits) : ℚ :=
  digitsValue (digitText number.digits) * 10 ^ number.lastExponent

/-- Digits are what is left of them without the zeros at the end, and these zeros. -/
theorem exists_zeros (digits : List Nat) :
    ∃ zeros, digits = (digits.reverse.dropWhile (· == 0)).reverse ++ List.replicate zeros 0 := by
  have zeros : digits.reverse.takeWhile (· == 0) =
      List.replicate (digits.reverse.takeWhile (· == 0)).length 0 :=
    List.eq_replicate_iff.mpr ⟨rfl, fun digit member =>
      eq_of_beq (List.all_eq_true.mp List.all_takeWhile digit member)⟩
  refine ⟨(digits.reverse.takeWhile (· == 0)).length, ?_⟩
  rw [← List.reverse_replicate, ← zeros, ← List.reverse_append, List.takeWhile_append_dropWhile,
    List.reverse_reverse]

/-- The digits of a number on a decimal grid stand for it. -/
theorem Digits.ofScaled_spec {count : Nat} (some : 0 < count) (exponent : Int) :
    (ofScaled count exponent).Proper ∧
      (ofScaled count exponent).value = count * 10 ^ exponent ∧
      exponent ≤ (ofScaled count exponent).lastExponent := by
  obtain ⟨zeros, split⟩ := exists_zeros (naturalDigits count)
  have small := naturalDigits_lt count
  have whole := digitsValue_naturalDigits count
  simp only [ofScaled, lastExponent, value]
  generalize ((naturalDigits count).reverse.dropWhile (· == 0)).reverse = kept at *
  rw [split] at small whole ⊢
  have zeroText : digitText (List.replicate zeros 0) = List.replicate zeros '0' := by
    simp [digitText]
  rw [digitText, List.map_append, ← digitText, ← digitText, zeroText, digitsValue_append,
    digitsValue_zeros, List.length_replicate, Nat.add_zero] at whole
  have last : exponent + ((kept ++ List.replicate zeros 0).length : Int) - 1 + 1 - kept.length =
      exponent + zeros := by
    simp
    ring
  refine ⟨⟨?_, ?_⟩, ?_, ?_⟩
  · rintro rfl
    simp [digitText, digitsValue] at whole
    omega
  · exact (List.forall_mem_append.mp small).1
  · rw [last, zpow_add₀ (by norm_num), zpow_natCast, ← whole]
    push_cast
    ring
  · rw [last]
    omega

/-! ## Literals -/

theorem exponentText_spec (exponent : Int) :
    ∃ word, exponentText exponent = (if exponent < 0 then '-' else '+') :: word ∧
      AllDigits word ∧ digitsValue word = exponent.natAbs ∧ word ≠ [] := by
  obtain ⟨digits, value, some⟩ := naturalText_spec exponent.natAbs
  rw [exponentText]
  generalize naturalText exponent.natAbs = word at *
  by_cases short : word.length < 2
  · refine ⟨'0' :: word, by simp [short], ?_, ?_, List.cons_ne_nil _ _⟩
    · exact List.forall_mem_cons.mpr ⟨by decide, digits⟩
    · rw [← value]
      rfl
  · exact ⟨word, by simp [short], digits, value, some⟩

/-- The texts that may stand behind a mantissa, with the exponents that they give. -/
inductive MarksExponent : List Char → Int → Prop
  | nothing : MarksExponent [] 0
  | marked (exponent : Int) : MarksExponent ('e' :: exponentText exponent) exponent

theorem MarksExponent.spec {tail : List Char} {exponent : Int}
    (marks : MarksExponent tail exponent) :
    exponentLength tail = tail.length ∧ exponentValue tail = exponent ∧
      ∀ next ∈ tail.head?, isPlainDigit next = false ∧ next ≠ '.' := by
  cases marks with
  | nothing => exact ⟨rfl, rfl, fun _ member => nomatch member⟩
  | marked =>
      obtain ⟨word, text, digits, value, some⟩ := exponentText_spec exponent
      rw [text]
      have whole : word.takeWhile isPlainDigit = word := List.takeWhile_eq_self_iff.mpr digits
      refine ⟨?_, ?_, by simp; decide⟩
      · have signed : (if exponent < 0 then '-' else '+') = '+' ∨
            (if exponent < 0 then '-' else '+') = '-' := by
          split
          · exact .inr rfl
          · exact .inl rfl
        have positive := List.length_pos_of_ne_nil some
        simp only [exponentLength, true_or, if_true, if_pos signed, whole, List.length_cons]
        split <;> omega
      · split
        case isTrue negative =>
            simp only [exponentValue, value]
            omega
        case isFalse =>
            simp only [exponentValue, value]
            omega

section Literals

variable {whole fraction tail : List Char} {exponent : Int} (wholeDigits : AllDigits whole)
  (some : whole ≠ []) (fractionDigits : AllDigits fraction) (marks : MarksExponent tail exponent)

include wholeDigits some marks

/-- A literal without a point. -/
theorem literal_bare :
    literalLength (whole ++ tail) = (whole ++ tail).length ∧
      literalValue false (whole ++ tail) = scaledValue false (digitsValue whole) exponent := by
  obtain ⟨length, value, ends⟩ := marks.spec
  have digits := takeWhile_digits wholeDigits fun next member => (ends next member).1
  have all : whole.takeWhile isPlainDigit = whole := List.takeWhile_eq_self_iff.mpr wholeDigits
  have mantissa : mantissaLength (whole ++ tail) = whole.length := by
    simp only [mantissaLength, digits, List.drop_left]
    split
    case h_1 => exact absurd rfl (ends '.' rfl).2
    case h_2 => rfl
  have positive := List.length_pos_of_ne_nil some
  constructor
  · rw [literalLength, mantissa]
    split
    case h_1 none => omega
    case h_2 => rw [List.drop_left, length, List.length_append]
  · have none : whole.drop (whole.length + 1) = [] := List.drop_eq_nil_of_le (Nat.le_succ _)
    simp only [literalValue, mantissa, List.take_left, List.drop_left, all, value, none,
      List.append_nil, List.length_nil]
    simp

include fractionDigits

/-- A literal with a point. -/
theorem literal_point :
    literalLength (whole ++ '.' :: (fraction ++ tail)) =
        (whole ++ '.' :: (fraction ++ tail)).length ∧
      literalValue false (whole ++ '.' :: (fraction ++ tail)) =
        scaledValue false (digitsValue (whole ++ fraction)) (exponent - fraction.length) := by
  obtain ⟨length, value, ends⟩ := marks.spec
  have digits (rest : List Char) : (whole ++ '.' :: rest).takeWhile isPlainDigit = whole :=
    takeWhile_digits wholeDigits (by simp; decide)
  have behind := takeWhile_digits fractionDigits fun next member => (ends next member).1
  have positive := List.length_pos_of_ne_nil some
  have mantissa : mantissaLength (whole ++ '.' :: (fraction ++ tail)) =
      (whole ++ '.' :: fraction).length := by
    simp only [mantissaLength, digits, List.drop_left, behind]
    rw [if_neg (by omega)]
    simp
    omega
  have split : whole ++ '.' :: (fraction ++ tail) = (whole ++ '.' :: fraction) ++ tail := by simp
  have fraction_eq : (whole ++ '.' :: fraction).drop (whole.length + 1) = fraction := by
    rw [List.drop_append]
    simp
  rw [split] at mantissa ⊢
  constructor
  · rw [literalLength, mantissa]
    split
    case h_1 none => simp at none
    case h_2 =>
        rw [List.drop_left, length]
        exact List.length_append.symm
  · simp only [literalValue, mantissa, List.take_left, List.drop_left, digits, value, fraction_eq]

end Literals

/-! ## Layouts -/

/-- Whether a text is a literal for a number: it is read as some digits on a decimal grid that stand
for the number, and the grid is not finer than the given one, or one of tenths. -/
def IsLiteralFor (text : List Char) (number : ℚ) (least : Int) : Prop :=
  text ≠ [] ∧ literalLength text = text.length ∧ ∃ (count : Nat) (exponent : Int),
    literalValue false text = scaledValue false count exponent ∧
      (count : ℚ) * 10 ^ exponent = number ∧ min least (-1) ≤ exponent

/-- Whether a text is a literal for digits, the first of which has the given exponent. -/
def IsLiteralForDigits (text word : List Char) (exponent : Int) : Prop :=
  IsLiteralFor text (digitsValue word * 10 ^ (exponent + 1 - word.length))
    (exponent + 1 - word.length)

section Layouts

variable {word : List Char} {exponent : Int} (digits : AllDigits word)

include digits

/-- All digits are behind the point, and zeros before them. -/
theorem isLiteralForDigits_fraction (negative : exponent < 0) :
    IsLiteralForDigits ('0' :: '.' :: List.replicate ((-exponent).toNat - 1) '0' ++ word) word
      exponent := by
  have fraction : AllDigits (List.replicate ((-exponent).toNat - 1) '0' ++ word) :=
    List.forall_mem_append.mpr ⟨allDigits_zeros _, digits⟩
  obtain ⟨whole, read⟩ := literal_point (List.forall_mem_singleton.mpr (by decide) :
    AllDigits ['0']) (List.cons_ne_nil _ _) fraction .nothing
  have count : digitsValue (['0'] ++ (List.replicate ((-exponent).toNat - 1) '0' ++ word)) =
      digitsValue word := by
    rw [digitsValue_append, digitsValue_append, digitsValue_zeros]
    simp [digitsValue, plainDigitValue]
  have last : 0 - ((List.replicate ((-exponent).toNat - 1) '0' ++ word).length : Int) =
      exponent + 1 - word.length := by
    rw [List.length_append, List.length_replicate]
    omega
  rw [count, last] at read
  rw [List.append_nil] at whole read
  exact ⟨List.cons_ne_nil _ _, whole, _, _, read, rfl, min_le_left _ _⟩

/-- All digits are before the point, and zeros may follow them. -/
theorem isLiteralForDigits_whole (some : word ≠ []) (positive : 0 ≤ exponent)
    (few : word.length ≤ exponent.toNat + 1) :
    IsLiteralForDigits
      (word ++ List.replicate (exponent.toNat + 1 - word.length) '0' ++ ['.', '0']) word
      exponent := by
  have before : AllDigits (word ++ List.replicate (exponent.toNat + 1 - word.length) '0') :=
    List.forall_mem_append.mpr ⟨digits, allDigits_zeros _⟩
  obtain ⟨whole, read⟩ := literal_point before (by simp [some])
    (List.forall_mem_singleton.mpr (by decide) : AllDigits ['0']) .nothing
  refine ⟨by simp, whole, _, _, read, ?_, min_le_right _ _⟩
  have zeros : exponent + 1 - (word.length : Int) = (exponent.toNat + 1 - word.length : Nat) := by
    omega
  rw [digitsValue_append, digitsValue_append, digitsValue_zeros, List.length_replicate, zeros,
    zpow_natCast]
  simp [digitsValue, plainDigitValue]

/-- The point stands between the digits. -/
theorem isLiteralForDigits_point (positive : 0 ≤ exponent)
    (many : exponent.toNat + 1 < word.length) :
    IsLiteralForDigits
      (word.take (exponent.toNat + 1) ++ '.' :: word.drop (exponent.toNat + 1)) word exponent := by
  have before : AllDigits (word.take (exponent.toNat + 1)) :=
    fun character member => digits character (List.mem_of_mem_take member)
  have behind : AllDigits (word.drop (exponent.toNat + 1)) :=
    fun character member => digits character (List.mem_of_mem_drop member)
  have someBefore : word.take (exponent.toNat + 1) ≠ [] := by
    refine List.ne_nil_of_length_pos ?_
    rw [List.length_take]
    omega
  obtain ⟨whole, read⟩ := literal_point before someBefore behind .nothing
  have last : 0 - ((word.drop (exponent.toNat + 1)).length : Int) = exponent + 1 - word.length := by
    rw [List.length_drop]
    omega
  rw [List.take_append_drop, last] at read
  rw [List.append_nil] at whole read
  exact ⟨by simp, whole, _, _, read, rfl, min_le_left _ _⟩

/-- A single digit, and an exponent behind it. -/
theorem isLiteralForDigits_single (single : word.length = 1) :
    IsLiteralForDigits (word ++ 'e' :: exponentText exponent) word exponent := by
  have some : word ≠ [] := List.ne_nil_of_length_pos (by omega)
  obtain ⟨whole, read⟩ := literal_bare digits some (.marked exponent)
  have last : exponent = exponent + 1 - (word.length : Int) := by omega
  exact ⟨by simp, whole, _, exponent, read, by rw [← last], by omega⟩

end Layouts

/-- The point stands behind the first of several digits, and an exponent behind the others. -/
theorem isLiteralForDigits_several {first second : Char} {more : List Char}
    {exponent : Int} (digits : AllDigits (first :: second :: more)) :
    IsLiteralForDigits (first :: '.' :: second :: more ++ 'e' :: exponentText exponent)
      (first :: second :: more) exponent := by
  obtain ⟨whole, read⟩ := literal_point
    (List.forall_mem_singleton.mpr (digits first (.head _)) : AllDigits [first])
    (List.cons_ne_nil _ _)
    (fun character member => digits character (.tail _ member)) (.marked exponent)
  have last : exponent - ((second :: more).length : Int) =
      exponent + 1 - (first :: second :: more).length := by
    simp only [List.length_cons]
    omega
  rw [last] at read
  exact ⟨List.cons_ne_nil _ _, whole, _, _, read, rfl, min_le_left _ _⟩

/-- The text of digits is a literal for the number that they stand for. -/
theorem Digits.isLiteralFor {number : Digits} (proper : number.Proper) :
    IsLiteralFor (number.text .lone) number.value number.lastExponent := by
  obtain ⟨digits, exponent⟩ := number
  have allDigits := allDigits_digitText proper.small
  have some : digitText digits ≠ [] := by simpa [digitText] using proper.some
  have length : (digitText digits).length = digits.length := List.length_map _
  simp only [text, Layout.lone, value, lastExponent, if_true]
  rw [← length]
  generalize digitText digits = word at *
  split
  case isTrue positional =>
      split
      case isTrue negative => exact isLiteralForDigits_fraction allDigits negative
      case isFalse positive =>
          split
          case h_1 none =>
              have few := List.drop_eq_nil_iff.mp none
              rw [List.take_of_length_le few]
              exact isLiteralForDigits_whole allDigits some (not_lt.mp positive) few
          case h_2 _ behind =>
              have many : exponent.toNat + 1 < word.length :=
                not_le.mp (mt List.drop_eq_nil_of_le behind)
              rw [Nat.sub_eq_zero_of_le many.le, List.replicate_zero, List.append_nil]
              exact isLiteralForDigits_point allDigits (not_lt.mp positive) many
  case isFalse =>
      rcases word with _ | ⟨first, _ | ⟨second, more⟩⟩
      · exact absurd rfl some
      · exact isLiteralForDigits_single allDigits rfl
      · exact isLiteralForDigits_several allDigits

/-! ## Reading back -/

section Parts

variable {parts : Finite}

/-- The range of doubles between powers of ten. -/
theorem ten_pow_range :
    (10 : ℚ) ^ (-324 : Int) ≤ 2 ^ (-1074 : Int) / 2 ∧
      2 * (2 : ℚ) ^ (1024 : Int) ≤ 10 ^ (309 : Int) := by
  have low : 2 * 2 ^ 1074 ≤ 10 ^ 324 := by decide +kernel
  have high : 2 * 2 ^ 1024 ≤ 10 ^ 309 := by decide +kernel
  have low_cast : 2 * (2 : ℚ) ^ (1074 : Int) ≤ 10 ^ (324 : Int) := by exact_mod_cast low
  refine ⟨?_, by exact_mod_cast high⟩
  rw [zpow_neg, zpow_neg, div_eq_mul_inv, ← mul_inv, mul_comm]
  exact inv_anti₀ (by positivity) low_cast

/-- The numbers of the interval of a double are neither very small nor very large. -/
theorem Interval.Contains.range (canonical : parts.Canonical) (some : 0 < parts.significand)
    {number : ℚ} (contains : (Interval.ofFinite parts).Contains number) :
    (10 : ℚ) ^ (-324 : Int) ≤ number ∧ number < 10 ^ (309 : Int) := by
  have power : (0 : ℚ) < 2 ^ parts.exponent := by positivity
  have one : (1 : ℚ) ≤ parts.significand := by exact_mod_cast some
  obtain ⟨least, most⟩ := magnitude_range canonical some
  obtain ⟨lower, upper, _⟩ := contains.near some
  rw [Finite.magnitude] at least most
  have half : (parts.significand : ℚ) * 2 ^ parts.exponent / 2 ≤ number := by
    refine le_trans ?_ lower
    nlinarith
  have double : number ≤ 2 * (parts.significand * 2 ^ parts.exponent) := by
    refine upper.trans ?_
    nlinarith
  obtain ⟨lowest, highest⟩ := ten_pow_range
  generalize (2 : ℚ) ^ (-1074 : Int) = low, (2 : ℚ) ^ (1024 : Int) = high,
    (10 : ℚ) ^ (-324 : Int) = tiny, (10 : ℚ) ^ (309 : Int) = huge at *
  constructor <;> linarith

theorem Interval.Contains.count_pos (some : 0 < parts.significand) {count : Nat} {exponent : Int}
    (contains : (Interval.ofFinite parts).Contains (count * 10 ^ exponent)) : 0 < count := by
  have power : (0 : ℚ) < 10 ^ exponent := by positivity
  exact_mod_cast (mul_pos_iff_of_pos_right power).mp (contains.pos some)

/-- The estimate of the number of digits is good enough for all counts that are read. -/
theorem digits_estimate {place : Nat} (small : place ≤ 100000) :
    (10 : ℚ) ^ ((place : Int) * 30103 / 100000) ≤ 10 * 2 ^ (place : Int) ∧
      2 * (2 : ℚ) ^ (place : Int) ≤ 100 * 10 ^ ((place : Int) * 30103 / 100000) := by
  have estimate : ((place : Int) * 30103 / 100000) = (place * 30103 / 100000 : Nat) := by omega
  have above : 10 ^ (place * 30103 / 100000) ≤ 2 * 2 ^ place :=
    ten_pow_le_two_pow (by omega) small
  have below : 2 ^ place ≤ 10 ^ (place * 30103 / 100000 + 1) := two_pow_le_ten_pow (by omega)
  rw [estimate, zpow_natCast, zpow_natCast]
  constructor
  · have : 10 ^ (place * 30103 / 100000) ≤ 10 * 2 ^ place := by omega
    exact_mod_cast this
  · have : 2 * 2 ^ place ≤ 100 * 10 ^ (place * 30103 / 100000) := by
      rw [Nat.pow_succ] at below
      omega
    exact_mod_cast this

/-- Digits on a grid that is not too fine are few when their number is below `10 ^ 309`. -/
theorem log2_lt_of_scaled {count : Nat} {exponent : Int} (least : -360 < exponent)
    (positive : 0 < count) (upper : (count : ℚ) * 10 ^ exponent < 10 ^ (309 : Int)) :
    count.log2 < 2300 := by
  by_contra many
  have checked : 10 ^ 309 * 10 ^ 360 ≤ 2 ^ 2300 := by decide +kernel
  have checked_cast : (10 : ℚ) ^ (309 : Int) * 10 ^ (360 : Int) ≤ 2 ^ (2300 : Int) := by
    exact_mod_cast checked
  have finest : (10 : ℚ) ^ (-360 : Int) ≤ 10 ^ exponent :=
    zpow_le_zpow_right₀ (by norm_num) least.le
  have high : (2 : ℚ) ^ (2300 : Int) ≤ 2 ^ (count.log2 : Int) :=
    zpow_le_zpow_right₀ one_le_two (by omega)
  have product : (count : ℚ) * 10 ^ (-360 : Int) < 10 ^ (309 : Int) :=
    lt_of_le_of_lt (mul_le_mul_of_nonneg_left finest (Nat.cast_nonneg count)) upper
  rw [zpow_neg, ← div_eq_mul_inv, div_lt_iff₀ (by positivity)] at product
  exact absurd (product.trans_le checked_cast)
    (not_lt.mpr (high.trans (Binary64.two_zpow_log2_le positive)))

/-- The estimate of the place of the first digit does not rule out the numbers between the least
and the greatest powers of ten. -/
theorem scaled_estimate {count : Nat} {exponent : Int} (positive : 0 < count)
    (few : count.log2 < 2300) (lower : (10 : ℚ) ^ (-324 : Int) ≤ count * 10 ^ exponent)
    (upper : (count : ℚ) * 10 ^ exponent < 10 ^ (309 : Int)) :
    -324 < exponent + (count.log2 : Int) * 30103 / 100000 + 2 ∧
      exponent + (count.log2 : Int) * 30103 / 100000 < 310 := by
  have power : (0 : ℚ) < 10 ^ exponent := by positivity
  have countLow := Binary64.two_zpow_log2_le positive
  have countHigh := Binary64.lt_two_zpow_log2 count
  obtain ⟨above, below⟩ := digits_estimate (few.le.trans (by decide))
  generalize (count.log2 : Int) * 30103 / 100000 = digits at *
  constructor
  · refine (zpow_lt_zpow_iff_right₀ (by norm_num : (1 : ℚ) < 10)).mp ?_
    calc (10 : ℚ) ^ (-324 : Int) ≤ count * 10 ^ exponent := lower
      _ < 2 ^ ((count.log2 : Int) + 1) * 10 ^ exponent := by gcongr
      _ = 2 * 2 ^ (count.log2 : Int) * 10 ^ exponent := by
          rw [zpow_add_one₀ two_ne_zero]
          ring
      _ ≤ 100 * 10 ^ digits * 10 ^ exponent := by gcongr
      _ = 10 ^ (exponent + digits + 2) := by
          rw [zpow_add₀ (by norm_num), zpow_add₀ (by norm_num)]
          norm_num
          ring
  · refine (zpow_lt_zpow_iff_right₀ (by norm_num : (1 : ℚ) < 10)).mp ?_
    calc (10 : ℚ) ^ (exponent + digits) = 10 ^ exponent * 10 ^ digits :=
          zpow_add₀ (by norm_num) _ _
      _ ≤ 10 ^ exponent * (10 * count) := by
          gcongr
          exact above.trans (by gcongr)
      _ = 10 * (count * 10 ^ exponent) := by ring
      _ < 10 * 10 ^ (309 : Int) := by gcongr
      _ = 10 ^ (310 : Int) := (zpow_one_add₀ (by norm_num) 309).symm

/-- A number on a decimal grid that is in the interval of a double is rounded to the double. -/
theorem scaledValue_eq (canonical : parts.Canonical) (some : 0 < parts.significand) {count : Nat}
    {exponent : Int} (least : -360 < exponent)
    (contains : (Interval.ofFinite parts).Contains (count * 10 ^ exponent)) :
    scaledValue false count exponent = Float.ofBits (UInt64.ofNat parts.bits) := by
  obtain ⟨lower, upper⟩ := contains.range canonical some
  have positive := contains.count_pos some
  have few := log2_lt_of_scaled least positive upper
  obtain ⟨small, large⟩ := scaled_estimate positive few lower upper
  have notLarge : ¬310 < exponent + (count.log2 : Int) * 30103 / 100000 := by omega
  have notSmall : ¬exponent + (count.log2 : Int) * 30103 / 100000 < -330 := by omega
  simp only [scaledValue, positive.ne', if_false, notLarge, notSmall]
  split
  case isTrue whole =>
      have quotient : ((count * 10 ^ exponent.toNat : Nat) : ℚ) / (1 : Nat) =
          count * 10 ^ exponent := by
        rw [Nat.cast_mul, ten_pow_toNat whole, Nat.cast_one, div_one]
      have rounded := ratioBits_of_contains canonical some Nat.one_pos (quotient ▸ contains)
      simp only [Binary64.ofRatio, Nat.pow_eq, rounded]
      rfl
  case isFalse part =>
      have quotient : (count : ℚ) / (10 ^ (-exponent).toNat : Nat) = count * 10 ^ exponent := by
        rw [ten_pow_toNat_neg part, div_inv_eq_mul]
      have rounded := ratioBits_of_contains canonical some (Nat.pow_pos (by decide))
        (quotient ▸ contains)
      simp only [Binary64.ofRatio, Nat.pow_eq, rounded]
      rfl

end Parts

/-- The text of a finite double without a sign is a literal that gives the double back. -/
theorem floatText_spec {value : Float} {parts : Finite}
    (decoded : Binary64.decode? value = some parts) (plain : parts.negative = false) :
    floatText .lone value ≠ [] ∧
      literalLength (floatText .lone value) = (floatText .lone value).length ∧
      literalValue false (floatText .lone value) = value := by
  obtain ⟨canonical, bits, sign⟩ := Binary64.canonical_of_decodeBits? decoded
  have unsigned : value.toBits.toNat < 2 ^ 63 := by
    rw [plain, eq_comm, decide_eq_false_iff_not] at sign
    omega
  rw [Nat.mod_eq_of_lt unsigned] at bits
  have value_eq : Float.ofBits (UInt64.ofNat parts.bits) = value := by
    rw [bits, UInt64.ofNat_toNat, Float.ofBits_toBits]
  have text : floatText .lone value =
      if parts.significand = 0 then ['0', '.', '0'] else (shortest parts).text .lone := by
    simp only [floatText, decoded, plain]
    rfl
  rw [text]
  split
  case isTrue zero =>
      have nothing : parts.bits = 0 := by
        have normal := canonical.normal
        have exponent : parts.exponent = -1074 := by omega
        rw [Finite.bits, zero, exponent]
        rfl
      rw [nothing] at value_eq
      rw [← value_eq]
      exact ⟨List.cons_ne_nil _ _, by decide, by decide +kernel⟩
  case isFalse other =>
      have some : 0 < parts.significand := Nat.pos_of_ne_zero other
      obtain ⟨count, exponent, digits, least, contains⟩ := exists_shortest canonical some
      have positive := contains.count_pos some
      obtain ⟨proper, stands, finest⟩ := Digits.ofScaled_spec positive exponent
      obtain ⟨nonempty, whole, found, place, read, same, grid⟩ := Digits.isLiteralFor proper
      rw [digits]
      refine ⟨nonempty, whole, ?_⟩
      rw [read, ← value_eq]
      refine scaledValue_eq canonical some (by omega) ?_
      rw [same, stands]
      exact contains

end Formulary.Decimal
