import Formulary.Proofs.Meaning
import Formulary.Proofs.WorkArea

/-!
# Vectors component by component

A kernel combines two groups of values by cases on their widths. The meaning of an expression names
the component that takes part at each index. Both are the same operation on groups that are not
empty.
-/

namespace Formulary.Expression

variable {α : Type}

/-- Within the width of a vector its own component takes part. -/
theorem component_of_lt (zero : α) {vector : List α} {index : Nat}
    (inside : index < vector.length) : component zero vector index = vector[index] := by
  unfold component
  split
  case isTrue single =>
      obtain ⟨value, rfl⟩ := List.length_eq_one_iff.mp single
      simp
  case isFalse several => simp [List.getD_eq_getElem?_getD, inside]

/-- A scalar takes part everywhere. -/
theorem component_single (zero value : α) (index : Nat) :
    component zero [value] index = value := rfl

/-- A vector that is no scalar takes part as if it were extended by zeros. -/
theorem component_of_several (zero : α) {vector : List α} (several : vector.length ≠ 1)
    {index count : Nat} (inside : index < (vector ++ List.replicate count zero).length) :
    component zero vector index = (vector ++ List.replicate count zero)[index] := by
  by_cases within : index < vector.length
  · rw [component_of_lt zero within, List.getElem_append_left within]
  · rw [List.getElem_append_right (by omega), List.getElem_replicate, component, if_neg several,
      List.getD_eq_getElem?_getD, List.getElem?_eq_none (by omega), Option.getD_none]

/-- The operation of a kernel on two groups is the operation on vectors component by component. -/
theorem componentwise_eq_combine {zero : α} {apply : α → α → α} {left right : List α}
    (leftSome : 0 < left.length) (rightSome : 0 < right.length) :
    Kernel.componentwise zero apply left right = combine zero apply left right := by
  apply List.ext_getElem
  · rw [Kernel.length_componentwise leftSome rightSome, length_combine]
  · intro index inside within
    rw [length_combine] at within
    simp only [combine, List.getElem_map, List.getElem_range]
    by_cases rightSingle : right.length = 1
    · obtain ⟨value, rfl⟩ := List.length_eq_one_iff.mp rightSingle
      have bound : index < left.length := by rw [List.length_singleton] at within; omega
      simp only [Kernel.componentwise_single_right, List.getElem_map, component_single,
        component_of_lt zero bound]
    · by_cases leftSingle : left.length = 1
      · obtain ⟨value, rfl⟩ := List.length_eq_one_iff.mp leftSingle
        have bound : index < right.length := by rw [List.length_singleton] at within; omega
        simp only [Kernel.componentwise_single_left value rightSingle, List.getElem_map,
          component_single, component_of_lt zero bound]
      · simp only [Kernel.componentwise_several leftSingle rightSingle, List.getElem_zipWith]
        rw [← component_of_several zero leftSingle, ← component_of_several zero rightSingle]

/-- The dot product of a kernel is the dot product of vectors. -/
theorem vector_dot (arithmetic : Arithmetic α) (left right : List α) :
    Kernel.vector arithmetic .dot left right = [dot arithmetic left right] := by
  rw [Kernel.vector, if_pos rfl, dot, List.zipWith_foldl_eq_zip_foldl]

/-- The other vector operators of a kernel work component by component. -/
theorem vector_eq_combine (arithmetic : Arithmetic α) (operator : VectorOperator)
    (noDot : operator ≠ .dot) {left right : List α} (leftSome : 0 < left.length)
    (rightSome : 0 < right.length) :
    Kernel.vector arithmetic operator left right =
      combine arithmetic.zero (arithmetic.apply operator.componentwise) left right := by
  rw [Kernel.vector, if_neg noDot, componentwise_eq_combine leftSome rightSome]

/-- A vector and a scalar are combined by taking the scalar with every component. -/
theorem combine_single_right (zero : α) (apply : α → α → α) {left : List α}
    (some : 0 < left.length) (scalar : α) :
    combine zero apply left [scalar] = left.map fun component => apply component scalar := by
  rw [← componentwise_eq_combine some (by simp), Kernel.componentwise_single_right]

/-- A vector times a scalar. -/
theorem multiply_single_right (arithmetic : Arithmetic α) {left : List α} (some : 0 < left.length)
    (scalar : α) :
    multiply arithmetic left [scalar] =
      left.map fun component => arithmetic.mul component scalar := by
  rw [multiply, if_pos (.inr rfl), combine_single_right _ _ some]

/-- A scalar and a vector are combined by taking the scalar with every component. -/
theorem combine_single_left (zero : α) (apply : α → α → α) {right : List α}
    (some : 0 < right.length) (scalar : α) :
    combine zero apply [scalar] right = right.map fun component => apply scalar component := by
  rw [← componentwise_eq_combine (by simp) some]
  by_cases single : right.length = 1
  · obtain ⟨value, rfl⟩ := List.length_eq_one_iff.mp single
    rfl
  · exact Kernel.componentwise_single_left scalar single

end Formulary.Expression
