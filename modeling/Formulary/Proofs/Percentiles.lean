import Formulary.Percentile
import Formulary.Proofs.OrderStatistics
import Formulary.Proofs.Outcome
import Mathlib

/-!
# Percentiles of exact numbers

Interpolation goes along straight lines from each value of a sorted list to the next one. On one
line it rises with the position, and where two lines meet both give the value of that index, so it
rises over the whole list. It also rises with the values themselves, since a point of a line is a
mean of the two ends, and the ends are values of fixed ranks.

Here the rule for percentiles is run on rational numbers, where no operation rounds.
-/

namespace Formulary.Interpolation

open Formulary.Insertion

/-- Interpolation of rational numbers. -/
def exact : Interpolation ℚ where
  add left right := left + right
  sub left right := left - right
  mul left right := left * right
  ofInt whole := whole
  less := lessThan
  floor value := .ok ⌊value⌋
  ceil value := .ok ⌈value⌉

/-! ## Straight lines between neighbours -/

/-- The point at a position on the line between the values next to it. -/
def between (values : ℤ → ℚ) (position : ℚ) : ℚ :=
  values ⌊position⌋ + (values ⌈position⌉ - values ⌊position⌋) * Int.fract position

section Lines

variable {values others : ℤ → ℚ} {position further : ℚ}

/-- A point of a line that rises is not below its start. -/
theorem floor_le_between (rises : values ⌊position⌋ ≤ values ⌈position⌉) :
    values ⌊position⌋ ≤ between values position :=
  le_add_of_nonneg_right (mul_nonneg (sub_nonneg.mpr rises) (Int.fract_nonneg position))

/-- A point of a line that rises is not above its end. -/
theorem between_le_ceil (rises : values ⌊position⌋ ≤ values ⌈position⌉) :
    between values position ≤ values ⌈position⌉ :=
  le_sub_iff_add_le'.mp
    (mul_le_of_le_one_right (sub_nonneg.mpr rises) (Int.fract_lt_one position).le)

/-- At an index a line has the value of that index. -/
theorem between_intCast (values : ℤ → ℚ) (index : ℤ) : between values index = values index := by
  simp [between]

/-- A point of a line is a mean of the two ends, so it rises with both. -/
theorem between_le_between (below : values ⌊position⌋ ≤ others ⌊position⌋)
    (above : values ⌈position⌉ ≤ others ⌈position⌉) :
    between values position ≤ between others position := by
  have mean : ∀ ends : ℤ → ℚ, between ends position =
      ends ⌊position⌋ * (1 - Int.fract position) + ends ⌈position⌉ * Int.fract position := by
    intro ends
    rw [between]
    ring
  rw [mean values, mean others]
  exact add_le_add
    (mul_le_mul_of_nonneg_right below (sub_nonneg.mpr (Int.fract_lt_one position).le))
    (mul_le_mul_of_nonneg_right above (Int.fract_nonneg position))

/-- Within one line, a further position has a point that is no lower. -/
theorem between_le_of_floor_eq (le : position ≤ further) (same : ⌊position⌋ = ⌊further⌋)
    (rises : values ⌊further⌋ ≤ values ⌈further⌉) :
    between values position ≤ between values further := by
  by_cases whole : position ∈ Set.range ((↑) : ℤ → ℚ)
  · -- the line of an index ends where it starts
    obtain ⟨index, rfl⟩ := whole
    have start : index = ⌊further⌋ := by rw [← same, Int.floor_intCast]
    rw [between_intCast, start]
    exact floor_le_between rises
  · have behind : (⌊further⌋ : ℚ) < further := same ▸ (Int.floor_lt_self_iff.mpr whole).trans_le le
    have ceilings : ⌈position⌉ = ⌈further⌉ := by
      rw [(Int.ceil_eq_floor_add_one_iff_notMem position).mpr whole, same,
        (Int.ceil_eq_floor_add_one_iff_notMem further).mpr (Int.floor_lt_self_iff.mp behind)]
    have offsets : Int.fract position ≤ Int.fract further := by
      rw [Int.fract, Int.fract, same]
      exact sub_le_sub_right le _
    rw [between, between, same, ceilings]
    exact add_le_add_right (mul_le_mul_of_nonneg_left offsets (sub_nonneg.mpr rises)) _

/-- If the values rise over the indices of a range, their lines rise over the positions of it. -/
theorem between_mono {indices : Set ℤ} (rising : MonotoneOn values indices)
    (here : ⌊position⌋ ∈ indices ∧ ⌈position⌉ ∈ indices)
    (there : ⌊further⌋ ∈ indices ∧ ⌈further⌉ ∈ indices) (le : position ≤ further) :
    between values position ≤ between values further := by
  have risesHere := rising here.1 here.2 (Int.floor_le_ceil position)
  have risesThere := rising there.1 there.2 (Int.floor_le_ceil further)
  rcases (Int.floor_mono le).eq_or_lt with same | earlier
  · exact between_le_of_floor_eq le same risesThere
  · -- the line of the first position ends before the line of the second one starts
    have ends : ⌈position⌉ ≤ ⌊further⌋ := (Int.ceil_le_floor_add_one position).trans earlier
    calc between values position
        ≤ values ⌈position⌉ := between_le_ceil risesHere
      _ ≤ values ⌊further⌋ := rising here.2 there.1 ends
      _ ≤ between values further := floor_le_between risesThere

end Lines

/-! ## Values by their ranks -/

/-- The value of an index of the sorted list. -/
def ranked (values : List ℚ) (index : ℤ) : ℚ := (sort lessThan values).getD index.toNat 0

section Ranks

variable {values raised : List ℚ} {index : ℤ}

theorem length_sort (values : List ℚ) : (sort lessThan values).length = values.length :=
  (sort_perm _ values).length_eq

/-- An index within a list is a rank, and has the value of that rank. -/
theorem exists_rank (inside : index ∈ Set.Ico 0 (values.length : ℤ)) :
    ∃ (rank : Nat) (bound : rank < (sort lessThan values).length),
      index = rank ∧ ranked values index = (sort lessThan values)[rank] := by
  obtain ⟨rank, rfl⟩ := Int.eq_ofNat_of_zero_le inside.1
  have bound : rank < (sort lessThan values).length := by
    rw [length_sort]
    exact Int.ofNat_lt.mp inside.2
  exact ⟨rank, bound, rfl, List.getD_eq_getElem _ _ bound⟩

/-- The value of an index within a list is found. -/
theorem valueAt?_sort (inside : index ∈ Set.Ico 0 (values.length : ℤ)) :
    valueAt? (sort lessThan values) index = some (ranked values index) := by
  obtain ⟨rank, bound, rfl, value⟩ := exists_rank inside
  rw [valueAt?, if_pos inside.1, value]
  exact List.getElem?_eq_getElem bound

theorem ranked_mem (inside : index ∈ Set.Ico 0 (values.length : ℤ)) :
    ranked values index ∈ values := by
  obtain ⟨rank, bound, -, value⟩ := exists_rank inside
  rw [value]
  exact (sort_perm _ values).mem_iff.mp (List.getElem_mem bound)

/-- Every value of a list is the value of an index. -/
theorem exists_ranked_eq {value : ℚ} (member : value ∈ values) :
    ∃ index ∈ Set.Ico 0 (values.length : ℤ), ranked values index = value := by
  obtain ⟨rank, bound, rfl⟩ := List.getElem_of_mem ((sort_perm lessThan values).mem_iff.mpr member)
  refine ⟨rank, ⟨Int.natCast_nonneg rank, ?_⟩, List.getD_eq_getElem _ _ bound⟩
  rw [length_sort] at bound
  exact Int.ofNat_lt.mpr bound

/-- The values rise with the index. -/
theorem monotoneOn_ranked (values : List ℚ) :
    MonotoneOn (ranked values) (Set.Ico 0 (values.length : ℤ)) := by
  intro first firstInside second secondInside le
  obtain ⟨lower, lowerBound, rfl, lowerValue⟩ := exists_rank firstInside
  obtain ⟨upper, upperBound, rfl, upperValue⟩ := exists_rank secondInside
  rw [lowerValue, upperValue]
  exact (pairwise_sort values).sortedLE.getElem_le_getElem_of_le (Int.ofNat_le.mp le)

/-- A list with values has a last index. -/
theorem last_nonneg (nonempty : values ≠ []) : 0 ≤ (values.length - 1 : ℤ) :=
  Int.sub_nonneg.mpr (Int.ofNat_lt.mpr (List.length_pos_iff.mpr nonempty))

/-- The first value is the least one. -/
theorem isLeast_ranked_zero (nonempty : values ≠ []) :
    IsLeast {value | value ∈ values} (ranked values 0) := by
  have first : (0 : ℤ) ∈ Set.Ico 0 (values.length : ℤ) :=
    ⟨le_rfl, Int.lt_of_le_sub_one (last_nonneg nonempty)⟩
  refine ⟨ranked_mem first, fun value member => ?_⟩
  obtain ⟨index, inside, rfl⟩ := exists_ranked_eq member
  exact monotoneOn_ranked values first inside inside.1

/-- The last value is the greatest one. -/
theorem isGreatest_ranked_last (nonempty : values ≠ []) :
    IsGreatest {value | value ∈ values} (ranked values (values.length - 1)) := by
  have last : (values.length - 1 : ℤ) ∈ Set.Ico 0 (values.length : ℤ) :=
    ⟨last_nonneg nonempty, Int.sub_one_lt_of_le le_rfl⟩
  refine ⟨ranked_mem last, fun value member => ?_⟩
  obtain ⟨index, inside, rfl⟩ := exists_ranked_eq member
  exact monotoneOn_ranked values inside last (Int.le_sub_one_of_lt inside.2)

/-- The value of an index does not fall when values are raised. -/
theorem ranked_le_of_raised (raises : List.Forall₂ (· ≤ ·) values raised)
    (inside : index ∈ Set.Ico 0 (values.length : ℤ)) :
    ranked values index ≤ ranked raised index := by
  obtain ⟨rank, bound, rfl, value⟩ := exists_rank inside
  obtain ⟨other, boundRaised, same, valueRaised⟩ := exists_rank (raises.length_eq ▸ inside)
  obtain rfl := Int.ofNat_inj.mp same
  rw [value, valueRaised]
  exact getElem_sort_le_of_raised raises bound boundRaised

end Ranks

/-! ## Percentiles -/

section Percentiles

variable {values : List ℚ} {share : ℚ}

/-- Both indices next to the position of a percentile are within the list. -/
theorem position_inside (nonempty : values ≠ []) (shares : share ∈ Set.Icc (0 : ℚ) 1) :
    ⌊exact.position values.length share⌋ ∈ Set.Ico 0 (values.length : ℤ) ∧
      ⌈exact.position values.length share⌉ ∈ Set.Ico 0 (values.length : ℤ) := by
  have way : (0 : ℚ) ≤ ((values.length - 1 : ℤ) : ℚ) := Int.cast_nonneg (last_nonneg nonempty)
  have low : 0 ≤ ⌊exact.position values.length share⌋ :=
    Int.floor_nonneg.mpr (mul_nonneg way shares.1)
  have high : ⌈exact.position values.length share⌉ ≤ values.length - 1 :=
    Int.ceil_le.mpr (mul_le_of_le_one_right way shares.2)
  have order := Int.floor_le_ceil (exact.position values.length share)
  exact ⟨⟨low, by omega⟩, ⟨by omega, by omega⟩⟩

/-- A percentile is the point at its position on the lines between the sorted values. -/
theorem percentile_eq (nonempty : values ≠ []) (shares : share ∈ Set.Icc (0 : ℚ) 1) :
    exact.percentile values share =
      .ok (between (ranked values) (exact.position values.length share)) := by
  obtain ⟨low, high⟩ := position_inside nonempty shares
  have below := valueAt?_sort low
  have above := valueAt?_sort high
  unfold percentile
  simp only [exact, length_sort] at below above ⊢
  simp only [Outcome.ok_bind, below, above]
  rfl

/-- The percentile at no share of the way is the first value. -/
theorem between_position_zero (values : List ℚ) :
    between (ranked values) (exact.position values.length 0) = ranked values 0 := by
  have start : exact.position values.length 0 = ((0 : ℤ) : ℚ) := by simp [position, exact]
  rw [start, between_intCast]

/-- The percentile at the whole way is the last value. -/
theorem between_position_one (values : List ℚ) :
    between (ranked values) (exact.position values.length 1) =
      ranked values (values.length - 1) := by
  have finish : exact.position values.length 1 = ((values.length - 1 : ℤ) : ℚ) := mul_one _
  rw [finish, between_intCast]

/-- A further share of the way has a percentile that is no lower. -/
theorem between_position_mono {further : ℚ} (nonempty : values ≠ [])
    (shares : share ∈ Set.Icc (0 : ℚ) 1) (furtherShares : further ∈ Set.Icc (0 : ℚ) 1)
    (le : share ≤ further) :
    between (ranked values) (exact.position values.length share) ≤
      between (ranked values) (exact.position values.length further) := by
  have positions : exact.position values.length share ≤ exact.position values.length further :=
    mul_le_mul_of_nonneg_left le (Int.cast_nonneg (last_nonneg nonempty))
  exact between_mono (monotoneOn_ranked values) (position_inside nonempty shares)
    (position_inside nonempty furtherShares) positions

/-- What the percentile of some values at a share of the way is among the values, and how it goes
with the values and the share. -/
structure Interpolates (values : List ℚ) (share result : ℚ) : Prop where
  /-- Both indices are within the list. -/
  indices : ∃ low high : Nat,
    exact.floor (exact.position values.length share) = .ok (low : ℤ) ∧
      exact.ceil (exact.position values.length share) = .ok (high : ℤ) ∧
      low < values.length ∧ high < values.length
  inRange : ∃ least greatest, IsLeast {value | value ∈ values} least ∧
    IsGreatest {value | value ∈ values} greatest ∧ least ≤ result ∧ result ≤ greatest
  atZero : share = 0 → IsLeast {value | value ∈ values} result
  atOne : share = 1 → IsGreatest {value | value ∈ values} result
  permuted : ∀ others : List ℚ, others.Perm values → exact.percentile others share = .ok result
  share_mono : ∀ further, share ≤ further → further ≤ 1 →
    ∃ above, exact.percentile values further = .ok above ∧ result ≤ above
  values_mono : ∀ raised, List.Forall₂ (· ≤ ·) values raised →
    ∃ above, exact.percentile raised share = .ok above ∧ result ≤ above

/-- Some values have a percentile at every share of the way. It is between the least and the
greatest of them, which are the percentiles at both ends of the way. It does not depend on the order
of the list, and it rises with the share and with the values. -/
theorem percentile_interpolates (nonempty : values ≠ []) (shares : share ∈ Set.Icc (0 : ℚ) 1) :
    ∃ result, exact.percentile values share = .ok result ∧ Interpolates values share result := by
  have ends : (0 : ℚ) ∈ Set.Icc (0 : ℚ) 1 ∧ (1 : ℚ) ∈ Set.Icc (0 : ℚ) 1 := by simp
  obtain ⟨low, high⟩ := position_inside nonempty shares
  have computed := percentile_eq nonempty shares
  refine ⟨_, computed, ⟨?indices, ?inRange, ?atZero, ?atOne, ?permuted, ?shareMono, ?valuesMono⟩⟩
  case indices =>
    obtain ⟨lower, -, lowerEq, -⟩ := exists_rank low
    obtain ⟨upper, -, upperEq, -⟩ := exists_rank high
    exact ⟨lower, upper, congrArg Except.ok lowerEq, congrArg Except.ok upperEq,
      Int.ofNat_lt.mp (lowerEq ▸ low.2), Int.ofNat_lt.mp (upperEq ▸ high.2)⟩
  case inRange =>
    refine ⟨_, _, isLeast_ranked_zero nonempty, isGreatest_ranked_last nonempty, ?_, ?_⟩
    · rw [← between_position_zero]
      exact between_position_mono nonempty ends.1 shares shares.1
    · rw [← between_position_one]
      exact between_position_mono nonempty shares ends.2 shares.2
  case atZero =>
    rintro rfl
    rw [between_position_zero]
    exact isLeast_ranked_zero nonempty
  case atOne =>
    rintro rfl
    rw [between_position_one]
    exact isGreatest_ranked_last nonempty
  case permuted =>
    intro others permuted
    rw [← computed]
    unfold percentile
    rw [show exact.less = lessThan from rfl, sort_eq_of_perm permuted]
  case shareMono =>
    intro further le le_one
    have furtherShares : further ∈ Set.Icc (0 : ℚ) 1 := ⟨shares.1.trans le, le_one⟩
    exact ⟨_, percentile_eq nonempty furtherShares,
      between_position_mono nonempty shares furtherShares le⟩
  case valuesMono =>
    intro raised raises
    have raisedNonempty : raised ≠ [] := by
      rintro rfl
      exact nonempty (List.forall₂_nil_right_iff.mp raises)
    refine ⟨_, percentile_eq raisedNonempty shares, ?_⟩
    rw [← raises.length_eq]
    exact between_le_between (ranked_le_of_raised raises low) (ranked_le_of_raised raises high)

/-- A quarter of the way through four values is three quarters of the way from the first of them to
the second. -/
theorem percentile_interpolates_quarter :
    [5, 1, 4, 2] ≠ ([] : List ℚ) ∧ (1 / 4 : ℚ) ∈ Set.Icc (0 : ℚ) 1 ∧
      Interpolates [5, 1, 4, 2] (1 / 4) (7 / 4) := by
  have nonempty : [5, 1, 4, 2] ≠ ([] : List ℚ) := List.cons_ne_nil _ _
  have shares : (1 / 4 : ℚ) ∈ Set.Icc (0 : ℚ) 1 := by constructor <;> norm_num
  have value : (exact.percentile [5, 1, 4, 2] (1 / 4)).toOption = some (7 / 4) := by
    decide +kernel
  obtain ⟨result, computed, interpolates⟩ := percentile_interpolates nonempty shares
  rw [computed] at value
  cases value
  exact ⟨nonempty, shares, interpolates⟩

end Percentiles

end Formulary.Interpolation
