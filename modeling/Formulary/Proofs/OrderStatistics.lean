import Formulary.Insertion
import Mathlib.Data.List.Basic
import Mathlib.Order.Lattice

/-!
# Sorted values and their ranks

With an order as the comparison, sorting by insertion gives the values in rising order. A value is
inserted by halves: what is in front of the middle value and what is behind it stay apart, so each
half may be taken care of by itself.

A sorted list is determined by counting. The value of a rank is within a bound exactly when more
values than the rank are within the bound. So the value of a rank depends neither on the order of
the list nor on how it was sorted, and it does not fall when values of the list are raised.
-/

namespace Formulary.Insertion

variable {α : Type}

/-! ## Rising order -/

/-- What holds of a value and of all values of a list holds after the value is inserted. -/
theorem forall_mem_insert {less : α → α → Bool} {value : α} {values : List α} {holds : α → Prop}
    (here : holds value) (there : ∀ other ∈ values, holds other) :
    ∀ other ∈ insert less value values, holds other := by
  intro other inside
  rcases List.mem_cons.mp ((insert_perm less value values).mem_iff.mp inside) with rfl | member
  · exact here
  · exact there other member

/-- A chain goes on from the value before it. -/
theorem isChain_chain {follows : α → α → Bool} {related : α → α → Prop}
    (implies : ∀ last next, follows last next = true → related last next) (last : α)
    (values : List α) : List.IsChain related (last :: (chain follows last values).1) := by
  fun_induction chain follows last values with
  | case1 last => exact .singleton last
  | case2 last next rest holds run others split ih =>
      rw [split] at ih
      exact List.isChain_cons_cons.mpr ⟨implies last next holds, ih⟩
  | case3 last next rest fails => exact .singleton last

variable [LinearOrder α]

/-- The comparison of an order. -/
abbrev lessThan (left right : α) : Bool := decide (left < right)

/-- A list is sorted around a middle value when both sides are, one below it and one above it. -/
theorem pairwise_around_iff {lower upper : List α} {middle : α} :
    (lower ++ middle :: upper).Pairwise (· ≤ ·) ↔
      lower.Pairwise (· ≤ ·) ∧ upper.Pairwise (· ≤ ·) ∧
        (∀ value ∈ lower, value ≤ middle) ∧ ∀ value ∈ upper, middle ≤ value := by
  rw [List.pairwise_append, List.pairwise_cons]
  constructor
  · rintro ⟨sortedLower, ⟨above, sortedUpper⟩, apart⟩
    exact ⟨sortedLower, sortedUpper, fun value inside => apart value inside middle (.head _), above⟩
  · rintro ⟨sortedLower, sortedUpper, below, above⟩
    refine ⟨sortedLower, ⟨above, sortedUpper⟩, fun left inLower right inUpper => ?_⟩
    rcases List.mem_cons.mp inUpper with rfl | behind
    · exact below left inLower
    · exact (below left inLower).trans (above right behind)

/-- A value is inserted among sorted values at a place where they stay sorted. -/
theorem pairwise_insert {value : α} {values : List α} (sorted : values.Pairwise (· ≤ ·)) :
    (insert lessThan value values).Pairwise (· ≤ ·) := by
  fun_induction insert lessThan value values with
  | case1 values split => exact List.pairwise_singleton _ _
  | case2 values middle upper split lower before ih =>
      rw [← List.take_append_drop (values.length / 2) values, split] at sorted
      obtain ⟨sortedLower, sortedUpper, below, above⟩ := pairwise_around_iff.mp sorted
      have valueBelow : value ≤ middle := (of_decide_eq_true before).le
      exact pairwise_around_iff.mpr
        ⟨ih sortedLower, sortedUpper, forall_mem_insert valueBelow below, above⟩
  | case3 values middle upper split lower behind ih =>
      rw [← List.take_append_drop (values.length / 2) values, split] at sorted
      obtain ⟨sortedLower, sortedUpper, below, above⟩ := pairwise_around_iff.mp sorted
      have valueAbove : middle ≤ value := by simpa using behind
      exact pairwise_around_iff.mpr
        ⟨sortedLower, ih sortedUpper, below, forall_mem_insert valueAbove above⟩

/-- The initial run is sorted. -/
theorem pairwise_initialRun (values : List α) :
    (initialRun lessThan values).1.Pairwise (· ≤ ·) := by
  match values with
  | [] => exact .nil
  | [single] => exact List.pairwise_singleton _ _
  | first :: second :: rest =>
      simp only [initialRun]
      split
      case isTrue falls =>
          have falling : List.IsChain (· ≥ ·)
              (second :: (chain (fun last next => lessThan next last) second rest).1) :=
            isChain_chain (fun last next holds => (of_decide_eq_true holds).le) second rest
          have falls : first ≥ second := (of_decide_eq_true falls).le
          have whole := List.isChain_cons_cons.mpr ⟨falls, falling⟩
          exact List.pairwise_reverse.mpr (List.isChain_iff_pairwise.mp whole)
      case isFalse rises =>
          have rising : List.IsChain (· ≤ ·)
              (second :: (chain (fun last next => !lessThan next last) second rest).1) :=
            isChain_chain (fun last next holds => by simpa using holds) second rest
          have rises : first ≤ second := by simpa using rises
          have whole := List.isChain_cons_cons.mpr ⟨rises, rising⟩
          exact List.isChain_iff_pairwise.mp whole

/-- Sorting gives the values in rising order. -/
theorem pairwise_sort (values : List α) : (sort lessThan values).Pairwise (· ≤ ·) := by
  have gather : ∀ others run : List α, run.Pairwise (· ≤ ·) →
      (others.foldl (fun sorted value => insert lessThan value sorted) run).Pairwise (· ≤ ·) := by
    intro others
    induction others with
    | nil => exact fun _ sorted => sorted
    | cons value others ih => exact fun run sorted => ih _ (pairwise_insert sorted)
  exact gather _ _ (pairwise_initialRun values)

/-- Sorting does not look at the order of a list. -/
theorem sort_eq_of_perm {values others : List α} (permuted : others.Perm values) :
    sort lessThan others = sort lessThan values := by
  refine List.Perm.eq_of_pairwise (fun _ _ _ _ => le_antisymm) (pairwise_sort others)
    (pairwise_sort values) ?_
  exact (sort_perm _ _).trans (permuted.trans (sort_perm _ _).symm)

/-! ## Ranks -/

/-- The value of a rank is within a bound exactly when more values than the rank are. -/
theorem getElem_le_iff_lt_countP {values : List α} (sorted : values.Pairwise (· ≤ ·)) {rank : Nat}
    (inside : rank < values.length) {bound : α} :
    values[rank] ≤ bound ↔ rank < values.countP (· ≤ bound) := by
  induction values generalizing rank with
  | nil => exact absurd inside (Nat.not_lt_zero rank)
  | cons first rest ih =>
      obtain ⟨least, sortedRest⟩ := List.pairwise_cons.mp sorted
      by_cases within : first ≤ bound
      · rw [List.countP_cons_of_pos (by simpa using within)]
        cases rank with
        | zero => simpa using within
        | succ rank =>
            rw [Nat.add_lt_add_iff_right]
            exact ih sortedRest (Nat.lt_of_succ_lt_succ inside)
      · -- nothing in a sorted list is within a bound that its first value exceeds
        have exceeded : ∀ value ∈ first :: rest, ¬ value ≤ bound := by
          intro value member small
          rcases List.mem_cons.mp member with rfl | behind
          · exact within small
          · exact within ((least value behind).trans small)
        have none : (first :: rest).countP (· ≤ bound) = 0 :=
          List.countP_eq_zero.mpr fun value member => by simpa using exceeded value member
        rw [none]
        exact iff_of_false (exceeded _ (List.getElem_mem inside)) (Nat.not_lt_zero rank)

/-- When values are raised, no more of them are within a bound. -/
theorem countP_le_of_raised {values raised : List α} (raises : List.Forall₂ (· ≤ ·) values raised)
    (bound : α) : raised.countP (· ≤ bound) ≤ values.countP (· ≤ bound) := by
  induction raises with
  | nil => exact le_rfl
  | @cons value other rest others le raises ih =>
      by_cases within : other ≤ bound
      · rw [List.countP_cons_of_pos (by simpa using within),
          List.countP_cons_of_pos (by simpa using le.trans within)]
        exact Nat.succ_le_succ ih
      · rw [List.countP_cons_of_neg (by simpa using within)]
        exact ih.trans (List.sublist_cons_self value rest).countP_le

/-- The value of a rank does not fall when values are raised. -/
theorem getElem_sort_le_of_raised {values raised : List α}
    (raises : List.Forall₂ (· ≤ ·) values raised) {rank : Nat}
    (inside : rank < (sort lessThan values).length)
    (insideRaised : rank < (sort lessThan raised).length) :
    (sort lessThan values)[rank] ≤ (sort lessThan raised)[rank] := by
  have counted := (getElem_le_iff_lt_countP (pairwise_sort raised) insideRaised).mp le_rfl
  rw [getElem_le_iff_lt_countP (pairwise_sort values) inside, (sort_perm _ values).countP_eq]
  rw [(sort_perm _ raised).countP_eq] at counted
  exact counted.trans_le (countP_le_of_raised raises _)

end Formulary.Insertion
