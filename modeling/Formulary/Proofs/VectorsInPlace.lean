import Formulary.Proofs.Components

/-!
# Vector operators in place

A vector operator of an evaluation writes its result over its operands, and over the beginning of
the right one when that is the wider. A kernel takes the two groups of operands out of its stack
and makes a new list. Both come to the same values, whatever the widths: no component is read after
it was written over.

The work area is any memory with the operands just below its top, so the statement also holds where
no stack of a program led to it.
-/

namespace Formulary.Machine

variable {α : Type}

/-- The values in consecutive places of a memory. -/
def group (memory : Array α) (place width : Nat) : List α :=
  (memory.toList.drop place).take width

/-- A group has its width where the memory goes so far. -/
theorem length_group {memory : Array α} {place width : Nat}
    (room : place + width ≤ memory.size) : (group memory place width).length = width := by
  rw [group, List.length_take, List.length_drop, Array.length_toList]
  omega

/-- The values below a place, cut where the last two groups among them start. -/
theorem take_eq_groups (memory : Array α) (place left right : Nat) :
    memory.toList.take (place + (left + right)) =
      memory.toList.take place ++
        (group memory place left ++ group memory (place + left) right) := by
  rw [List.take_add, List.take_add, List.drop_drop]
  rfl

/-- A work area that is as large as its top says carries its own values. -/
theorem carries_values {machine : Machine α} (room : machine.top ≤ machine.memory.size) :
    machine.Carries machine.values where
  top_eq := by simp [values, room]
  holds := by
    intro place inside
    have below : place < machine.top := by
      rw [values, List.length_take] at inside
      omega
    simp [values, List.getElem?_take_of_lt below]

/-- What was written to a memory is the group of values from the first written place on. -/
theorem Overwritten.group_eq {before after : Array α} {place : Nat} {written : List α}
    (overwritten : Overwritten before after place written) :
    group after place written.length = written := by
  apply List.ext_getElem?
  intro offset
  by_cases inside : offset < written.length
  · rw [group, List.getElem?_take_of_lt inside, List.getElem?_drop, Array.getElem?_toList]
    exact overwritten.inside offset inside
  · have width : (group after place written.length).length ≤ written.length :=
      List.length_take_le _ _
    rw [List.getElem?_eq_none (by omega), List.getElem?_eq_none (by omega)]

/-- A vector operator in place puts the values that a kernel gets from the same operands where the
left operand started, and the top just above them. Every other place keeps its value. The values
are a dot product over the shorter operand, or a combination component by component in which a
single value goes with every component and the shorter of two vectors is extended by zeros. -/
theorem vectorInPlace_eq_vector (arithmetic : Arithmetic α) (operator : VectorOperator)
    (left right : Positive) (machine : Machine α)
    (operands : left.val + right.val ≤ machine.top)
    (room : machine.top ≤ machine.memory.size) :
    let place := machine.top - left.val - right.val
    let first := group machine.memory place left.val
    let second := group machine.memory (place + left.val) right.val
    let results := Kernel.vector arithmetic operator first second
    ∃ after : Array α,
      machine.vectorInPlace arithmetic operator left.val right.val =
          .ok ⟨after, place + results.length⟩ ∧
        after.size = machine.memory.size ∧
        (∀ other < place, after[other]? = machine.memory[other]?) ∧
        group after place results.length = results ∧
        (∀ other, place + results.length ≤ other → after[other]? = machine.memory[other]?) ∧
        results =
          if operator = .dot then [Expression.dot arithmetic first second]
          else
            Expression.combine arithmetic.zero (arithmetic.apply operator.componentwise)
              first second := by
  intro place first second results
  have leftWidth : first.length = left.val := length_group (by omega)
  have rightWidth : second.length = right.val := length_group (by omega)
  have leftSome : 0 < first.length := leftWidth ▸ left.property
  have rightSome : 0 < second.length := rightWidth ▸ right.property
  have cut : machine.values = machine.memory.toList.take place ++ (first ++ second) := by
    rw [← take_eq_groups, values, show machine.top = place + (left.val + right.val) by omega]
  have carries : machine.Carries (machine.memory.toList.take place ++ (first ++ second)) :=
    cut ▸ carries_values room
  have below : (machine.memory.toList.take place).length = place := by
    rw [List.length_take, Array.length_toList]
    omega
  obtain ⟨after, ran, overwritten⟩ :=
    carries.vectorInPlace_overwrites arithmetic operator leftSome rightSome
  rw [below, leftWidth, rightWidth] at ran
  rw [below] at overwritten
  refine ⟨after, ran, overwritten.size_eq,
    fun other lower => overwritten.outside other (.inl lower), overwritten.group_eq,
    fun other upper => overwritten.outside other (.inr upper), ?_⟩
  by_cases dot : operator = .dot
  · rw [if_pos dot, ← Expression.vector_dot, ← dot]
  · rw [if_neg dot, ← Expression.vector_eq_combine arithmetic operator dot leftSome rightSome]

/-- Two numbers plus three numbers: the sum takes the places of the two numbers and of the first of
the three, the third place held a summand until it was read, and the place above the top keeps what
it held. -/
theorem vectorInPlace_eq_vector_wide_right :
    let machine : Machine Float := ⟨#[7, 1, 2, 10, 20, 30, 99], 6⟩
    (2 + 3 ≤ machine.top ∧ machine.top ≤ machine.memory.size) ∧
      Kernel.vector Arithmetic.real .add [1, 2] [10, 20, 30] = [11, 22, 30] ∧
      ∃ after : Array Float,
        machine.vectorInPlace Arithmetic.real .add 2 3 = .ok ⟨after, 4⟩ ∧
          after[0]? = some 7 ∧ group after 1 3 = [11, 22, 30] ∧ after[6]? = some 99 := by
  intro machine
  have operands : 2 + 3 ≤ machine.top := by decide
  have room : machine.top ≤ machine.memory.size := by decide
  have sums : Kernel.vector Arithmetic.real .add [1, 2] [10, 20, 30] = [11, 22, 30] := by
    decide +kernel
  obtain ⟨after, ran, -, below, written, above, -⟩ :=
    vectorInPlace_eq_vector Arithmetic.real .add ⟨2, by decide⟩ ⟨3, by decide⟩ machine operands room
  have results : Kernel.vector Arithmetic.real .add
      (group machine.memory (machine.top - 2 - 3) 2)
      (group machine.memory (machine.top - 2 - 3 + 2) 3) = [11, 22, 30] := sums
  simp only [results] at ran written above
  exact ⟨⟨operands, room⟩, sums, after, ran, below 0 (by decide), written, above 6 (by decide)⟩

end Formulary.Machine
