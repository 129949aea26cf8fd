import Formulary.Kernel
import Formulary.Proofs.Outcome
import Mathlib.Data.List.Induction
import Mathlib.Tactic.ByContra

/-!
# Operations of the work area

The in-place operations of `Machine` act on the stack that the work area carries as the operations
on lists of `Kernel` do. `Carries` ties the two together; it says nothing of the places above the
top, so an operation may leave anything there.

A vector operator writes over its own operands. `overwrite_spec` asks of each component only that
it be computed from places that no earlier component was written to, which is what keeps a wide
right operand from being read after it was overwritten.
-/

namespace Formulary

open Outcome (ok_bind error_bind pure_eq_ok)

variable {α : Type}

namespace Machine

/-- The lowest places of a work area hold the values of a stack, from the bottom up, and the top is
just above them. -/
structure Carries (machine : Machine α) (stack : List α) : Prop where
  top_eq : machine.top = stack.length
  holds : ∀ place < stack.length, machine.memory[place]? = stack[place]?

/-- An operation ends with a work area of the given size that carries a stack. -/
def Yields (outcome : Except Fault (Machine α)) (size : Nat) (stack : List α) : Prop :=
  ∃ machine, outcome = .ok machine ∧ machine.memory.size = size ∧ machine.Carries stack

/-- The stack that a work area carries has room in it. -/
theorem Carries.length_le {machine : Machine α} {stack : List α} (carries : machine.Carries stack) :
    stack.length ≤ machine.memory.size := by
  by_contra short
  have held := carries.holds machine.memory.size (by omega)
  simp at held
  omega

/-- The stack that a work area carries is read off it as `Machine.values`. -/
theorem Carries.values_eq {machine : Machine α} {stack : List α}
    (carries : machine.Carries stack) : machine.values = stack := by
  have room := carries.length_le
  apply List.ext_getElem?
  intro place
  by_cases inside : place < stack.length
  · have held := carries.holds place inside
    simp [values, carries.top_eq, inside, held]
  · rw [List.getElem?_eq_none (by simp [values, carries.top_eq]; omega),
      List.getElem?_eq_none (by omega)]

/-- A new work area carries the empty stack. -/
theorem start_carries (arithmetic : Arithmetic α) (depth : Nat) :
    (start arithmetic depth).Carries [] where
  top_eq := rfl
  holds := by simp

/-- A value among the topmost values of a stack is read. -/
theorem Carries.get_eq {machine : Machine α} {below group : List α}
    (carries : machine.Carries (below ++ group)) {offset : Nat} (bound : offset < group.length) :
    get machine.memory (below.length + offset) = .ok group[offset] := by
  have held := carries.holds (below.length + offset) (by simp; omega)
  rw [List.getElem?_append_right (by omega), Nat.add_sub_cancel_left] at held
  simp [get, held, bound]

/-- The topmost values of a stack start where the values below them end. -/
theorem Carries.base_eq {machine : Machine α} {below group : List α}
    (carries : machine.Carries (below ++ group)) :
    machine.base group.length = .ok below.length := by
  simp [base, carries.top_eq]

/-- A place of the work area is replaced. -/
theorem put_eq {memory : Array α} {place : Nat} (value : α) (inside : place < memory.size) :
    put memory place value = .ok (memory.setIfInBounds place value) := by
  simp [put, inside]

/-- A value that is put over the topmost values takes their place on the stack. -/
theorem Carries.settle_yields {machine : Machine α} {below group : List α}
    (carries : machine.Carries (below ++ group)) (value : α)
    (room : below.length < machine.memory.size) :
    Yields (machine.settle below.length value) machine.memory.size (below ++ [value]) := by
  refine ⟨_, by rw [settle, put_eq value room, ok_bind, pure_eq_ok], by simp, ?_, ?_⟩
  · simp
  · intro place inside
    by_cases last : place = below.length
    · subst last
      simp [room]
    · have lower : place < below.length := by simp at inside; omega
      have held := carries.holds place (by simp; omega)
      rw [List.getElem?_append_left lower] at held
      rw [List.getElem?_append_left lower, ← held]
      simp [Ne.symm last]

/-- A value is pushed where there is room for it. -/
theorem Carries.push_yields {machine : Machine α} {stack : List α}
    (carries : machine.Carries stack) (value : α) (room : stack.length < machine.memory.size) :
    Yields (machine.push value) machine.memory.size (stack ++ [value]) := by
  have whole : machine.Carries (stack ++ []) := by simpa using carries
  have settled := whole.settle_yields value room
  rwa [← carries.top_eq] at settled

/-- A full work area takes no further value. -/
theorem Carries.push_full {machine : Machine α} {stack : List α} (carries : machine.Carries stack)
    (value : α) (full : machine.memory.size ≤ stack.length) :
    machine.push value = .error .stackOverrun := by
  have above : ¬machine.top < machine.memory.size := by rw [carries.top_eq]; omega
  rw [push, settle, put, if_neg above, error_bind]

/-! ## Writing components one after the other -/

/-- A memory whose places from a given one on were replaced by some values, and no others. -/
structure Overwritten (before after : Array α) (place : Nat) (written : List α) : Prop where
  size_eq : after.size = before.size
  inside : ∀ offset < written.length, after[place + offset]? = written[offset]?
  outside : ∀ other, other < place ∨ place + written.length ≤ other → after[other]? = before[other]?

/-- Nothing was written yet. -/
theorem Overwritten.nil (memory : Array α) (place : Nat) : Overwritten memory memory place [] :=
  ⟨rfl, by simp, fun _ _ => rfl⟩

/-- One more value is written behind those already written. -/
theorem Overwritten.snoc {before after : Array α} {place : Nat} {written : List α}
    (overwritten : Overwritten before after place written) (value : α)
    (room : place + written.length < before.size) :
    Overwritten before (after.setIfInBounds (place + written.length) value) place
      (written ++ [value]) where
  size_eq := by simp [overwritten.size_eq]
  inside := by
    intro offset bound
    have size := overwritten.size_eq
    by_cases last : offset = written.length
    · subst last
      simp [Array.getElem?_setIfInBounds]
      omega
    · have lower : offset < written.length := by simp at bound; omega
      rw [Array.getElem?_setIfInBounds_ne (by omega), overwritten.inside offset lower,
        List.getElem?_append_left lower]
  outside := by
    intro other apart
    simp only [List.length_append, List.length_singleton] at apart
    rw [Array.getElem?_setIfInBounds_ne (by omega)]
    exact overwritten.outside other (by omega)

/-- `overwrite` writes the values it computes, provided that each is computed from places that the
writes before it left alone. -/
theorem overwrite_spec {memory : Array α} {place count : Nat} (written : List α)
    (width : written.length = count) {value : Array α → Nat → Except Fault α}
    (room : place + count ≤ memory.size)
    (computes : ∀ offset (bound : offset < written.length) (current : Array α),
      (∀ other, other < place ∨ place + offset ≤ other → current[other]? = memory[other]?) →
        value current offset = .ok written[offset]) :
    ∃ after, overwrite memory place count value = .ok after ∧
      Overwritten memory after place written := by
  subst width
  induction written using List.reverseRecOn with
  | nil => exact ⟨memory, rfl, .nil memory place⟩
  | append_singleton written last inductionHypothesis =>
      simp only [List.length_append, List.length_singleton] at room computes
      obtain ⟨current, ran, overwritten⟩ := inductionHypothesis (by
        intro offset bound current same
        have computed := computes offset (by omega) current same
        rwa [List.getElem_append_left bound] at computed) (by omega)
      refine ⟨_, ?_, overwritten.snoc last (by omega)⟩
      have computed := computes written.length (by omega) current overwritten.outside
      have inside : place + written.length < current.size := by
        rw [overwritten.size_eq]
        omega
      rw [List.getElem_concat_length rfl] at computed
      simp only [overwrite] at ran
      simp only [overwrite, List.length_append, List.length_singleton, List.range_succ,
        List.foldlM_append, ran]
      simp [computed, put_eq last inside]

/-- Results written over the operands are on the stack when the top is put just above them. -/
theorem Overwritten.carries {machine : Machine α} {below group written : List α}
    {after : Array α} (overwritten : Overwritten machine.memory after below.length written)
    (carries : machine.Carries (below ++ group)) :
    Machine.Carries ⟨after, below.length + written.length⟩ (below ++ written) where
  top_eq := by simp
  holds := by
    intro place bound
    rw [List.length_append] at bound
    by_cases lower : place < below.length
    · rw [overwritten.outside place (.inl lower), carries.holds place (by simp; omega),
        List.getElem?_append_left lower, List.getElem?_append_left lower]
    · have written := overwritten.inside (place - below.length) (by omega)
      rw [Nat.add_sub_cancel' (by omega)] at written
      rw [written, List.getElem?_append_right (by omega)]

end Machine

/-! ## Groups of values -/

namespace Kernel

variable {zero : α} {apply : α → α → α}

/-- A single value on the right goes with every component on the left. -/
theorem componentwise_single_right (left : List α) (scalar : α) :
    componentwise zero apply left [scalar] = left.map fun value => apply value scalar := rfl

/-- A single value on the left goes with every component on the right. -/
theorem componentwise_single_left (scalar : α) {right : List α} (several : right.length ≠ 1) :
    componentwise zero apply [scalar] right = right.map fun value => apply scalar value := by
  match right, several with
  | [], _ => rfl
  | _ :: _ :: _, _ => rfl

/-- The shorter of two groups that are not single values is extended by zeros. -/
theorem componentwise_several {left right : List α} (leftSeveral : left.length ≠ 1)
    (rightSeveral : right.length ≠ 1) :
    componentwise zero apply left right =
      List.zipWith apply
        (left ++ List.replicate (max left.length right.length - left.length) zero)
        (right ++ List.replicate (max left.length right.length - right.length) zero) := by
  match left, right, leftSeveral, rightSeveral with
  | [], [], _, _ => rfl
  | [], _ :: _ :: _, _, _ => rfl
  | _ :: _ :: _, [], _, _ => rfl
  | _ :: _ :: _, _ :: _ :: _, _, _ => rfl

/-- The result of an operation component by component is as wide as the wider group, if neither
group is empty. -/
theorem length_componentwise {left right : List α} (leftSome : 0 < left.length)
    (rightSome : 0 < right.length) :
    (componentwise zero apply left right).length = max left.length right.length := by
  by_cases rightSingle : right.length = 1
  · obtain ⟨scalar, rfl⟩ := List.length_eq_one_iff.mp rightSingle
    simp only [componentwise_single_right, List.length_map, List.length_singleton]
    omega
  · by_cases leftSingle : left.length = 1
    · obtain ⟨scalar, rfl⟩ := List.length_eq_one_iff.mp leftSingle
      simp only [componentwise_single_left scalar rightSingle, List.length_map,
        List.length_singleton]
      omega
    · simp only [componentwise_several leftSingle rightSingle, List.length_zipWith,
        List.length_append, List.length_replicate]
      omega

end Kernel

namespace Machine

/-- A component of a group on the stack is read, or zero behind the group. -/
theorem component_eq (arithmetic : Arithmetic α) {memory : Array α} {place offset : Nat}
    {group : List α} (held : offset < group.length → memory[place + offset]? = group[offset]?) :
    component arithmetic memory place group.length offset =
      .ok (if inside : offset < group.length then group[offset] else arithmetic.zero) := by
  unfold component
  split
  case isTrue inside => simp [get, held inside, inside]
  case isFalse outside => rfl

/-- The dot product of two groups on the stack is the dot product of the lists. -/
theorem dotProduct_eq (arithmetic : Arithmetic α) {memory : Array α} {first second : Nat}
    {left right : List α}
    (leftHeld : ∀ offset < left.length, memory[first + offset]? = left[offset]?)
    (rightHeld : ∀ offset < right.length, memory[second + offset]? = right[offset]?) :
    dotProduct arithmetic memory first second (min left.length right.length) =
      .ok ((left.zip right).foldl
        (fun total factors => arithmetic.add total (arithmetic.mul factors.1 factors.2))
        arithmetic.zero) := by
  have summed : ∀ count ≤ min left.length right.length,
      dotProduct arithmetic memory first second count =
        .ok (((left.zip right).take count).foldl
          (fun total factors => arithmetic.add total (arithmetic.mul factors.1 factors.2))
          arithmetic.zero) := by
    intro count bound
    induction count with
    | zero => rfl
    | succ count inductionHypothesis =>
        have before := inductionHypothesis (by omega)
        have leftValue := leftHeld count (by omega)
        have rightValue := rightHeld count (by omega)
        rw [List.getElem?_eq_getElem (by omega)] at leftValue rightValue
        have inside : count < (left.zip right).length := by simp; omega
        simp only [dotProduct] at before
        simp only [dotProduct, List.range_succ, List.foldlM_append, before,
          List.take_add_one, List.getElem?_eq_getElem inside, List.foldl_append]
        simp [get, leftValue, rightValue]
  have whole := summed _ (Nat.le_refl _)
  rwa [List.take_of_length_le (by simp)] at whole

/-- A group of values on the stack is found in the memory. -/
theorem Carries.group_held {machine : Machine α} {below group above : List α}
    (carries : machine.Carries (below ++ (group ++ above))) {offset : Nat}
    (bound : offset < group.length) :
    machine.memory[below.length + offset]? = group[offset]? := by
  rw [carries.holds _ (by simp; omega), List.getElem?_append_right (by omega),
    Nat.add_sub_cancel_left, List.getElem?_append_left bound]

/-- A value is read where a group was found to hold it. -/
theorem get_of_held {memory : Array α} {place offset : Nat} {group : List α}
    (bound : offset < group.length) (held : memory[place]? = group[offset]?) :
    get memory place = .ok group[offset] := by
  simp [get, held, bound]

section Vector

variable {memory : Array α} {first second : Nat} {left right : List α} {apply : α → α → α}

/-- A group is combined with a scalar on its right, in its own places. -/
theorem overwrite_single_right (room : first + left.length ≤ memory.size)
    (leftHeld : ∀ offset < left.length, memory[first + offset]? = left[offset]?) (scalar : α) :
    ∃ after,
      overwrite memory first left.length (fun memory offset => do
          return apply (← get memory (first + offset)) scalar) = .ok after ∧
        Overwritten memory after first (left.map fun value => apply value scalar) := by
  refine overwrite_spec _ (List.length_map _) room ?_
  intro offset bound current same
  rw [List.length_map] at bound
  have held := (same _ (.inr (Nat.le_refl _))).trans (leftHeld offset bound)
  simp [get_of_held bound held]

/-- A group is combined with a scalar on its left, from the place of the scalar on. The component
that is read next lies above all that was written. -/
theorem overwrite_single_left (room : first + right.length ≤ memory.size)
    (rightHeld : ∀ offset < right.length, memory[second + offset]? = right[offset]?)
    (ordered : first ≤ second) (scalar : α) :
    ∃ after,
      overwrite memory first right.length (fun memory offset => do
          return apply scalar (← get memory (second + offset))) = .ok after ∧
        Overwritten memory after first (right.map fun value => apply scalar value) := by
  refine overwrite_spec _ (List.length_map _) room ?_
  intro offset bound current same
  rw [List.length_map] at bound
  have held := (same _ (.inr (by omega))).trans (rightHeld offset bound)
  simp [get_of_held bound held]

/-- Two groups are combined in the places of the first and, where the second is wider, in its own
first places, each of which was read before. -/
theorem overwrite_several (arithmetic : Arithmetic α) (leftSeveral : left.length ≠ 1)
    (rightSeveral : right.length ≠ 1) (room : first + max left.length right.length ≤ memory.size)
    (leftHeld : ∀ offset < left.length, memory[first + offset]? = left[offset]?)
    (rightHeld : ∀ offset < right.length, memory[second + offset]? = right[offset]?)
    (ordered : first ≤ second) :
    ∃ after,
      overwrite memory first (max left.length right.length) (fun memory offset => do
          let leftComponent ← component arithmetic memory first left.length offset
          let rightComponent ← component arithmetic memory second right.length offset
          return apply leftComponent rightComponent) = .ok after ∧
        Overwritten memory after first (Kernel.componentwise arithmetic.zero apply left right) := by
  have width : (Kernel.componentwise arithmetic.zero apply left right).length =
      max left.length right.length := by
    simp only [Kernel.componentwise_several leftSeveral rightSeveral, List.length_zipWith,
      List.length_append, List.length_replicate]
    omega
  refine overwrite_spec _ width room ?_
  intro offset bound current same
  -- Both reads are at or behind the place to be written, since `first ≤ second`.
  have leftRead : component arithmetic current first left.length offset = _ :=
    component_eq arithmetic fun inside =>
      (same _ (.inr (Nat.le_refl _))).trans (leftHeld offset inside)
  have rightRead : component arithmetic current second right.length offset = _ :=
    component_eq arithmetic fun inside => (same _ (.inr (by omega))).trans (rightHeld offset inside)
  simp only [leftRead, rightRead, ok_bind, pure_eq_ok,
    Kernel.componentwise_several leftSeveral rightSeveral, List.getElem_zipWith,
    List.getElem_append, List.getElem_replicate]

end Vector

section Operators

variable (arithmetic : Arithmetic α) {machine : Machine α}

/-- A vector operator in place writes what the same operator on the lists of its operands gives,
from the first place of the operands on, and nothing else. -/
theorem Carries.vectorInPlace_overwrites (operator : VectorOperator) {below left right : List α}
    (carries : machine.Carries (below ++ (left ++ right)))
    (leftSome : 0 < left.length) (rightSome : 0 < right.length) :
    ∃ after,
      machine.vectorInPlace arithmetic operator left.length right.length =
          .ok ⟨after, below.length + (Kernel.vector arithmetic operator left right).length⟩ ∧
        Overwritten machine.memory after below.length
          (Kernel.vector arithmetic operator left right) := by
  have room := carries.length_le
  simp only [List.length_append] at room
  have leftHeld : ∀ offset < left.length,
      machine.memory[below.length + offset]? = left[offset]? :=
    fun offset bound => carries.group_held bound
  have rightHeld : ∀ offset < right.length,
      machine.memory[below.length + left.length + offset]? = right[offset]? := by
    intro offset bound
    have regrouped : machine.Carries ((below ++ left) ++ (right ++ [])) := by simpa using carries
    rw [← List.length_append]
    exact regrouped.group_held bound
  have base := carries.base_eq
  rw [List.length_append] at base
  rw [vectorInPlace, base, ok_bind, Kernel.vector]
  by_cases dot : operator = .dot
  · rw [if_pos dot, if_pos dot, dotProduct_eq arithmetic leftHeld rightHeld, ok_bind, settle,
      put_eq _ (by omega), ok_bind, pure_eq_ok]
    exact ⟨_, rfl, (Overwritten.nil machine.memory below.length).snoc _ (by simp; omega)⟩
  rw [if_neg dot, if_neg dot]
  by_cases rightSingle : right.length = 1
  · obtain ⟨scalar, rfl⟩ := List.length_eq_one_iff.mp rightSingle
    have scalarRead := get_of_held (by simp) (rightHeld 0 (by simp))
    obtain ⟨after, ran, overwritten⟩ := overwrite_single_right (by omega) leftHeld scalar
    rw [if_pos rightSingle, ← Nat.add_zero (below.length + left.length), scalarRead, ok_bind]
    simp only [List.getElem_cons_zero]
    rw [ran]
    refine ⟨after, ?_, overwritten⟩
    rw [Kernel.componentwise_single_right, List.length_map]
    rfl
  rw [if_neg rightSingle]
  by_cases leftSingle : left.length = 1
  · obtain ⟨scalar, rfl⟩ := List.length_eq_one_iff.mp leftSingle
    have scalarRead := get_of_held (by simp) (leftHeld 0 (by simp))
    obtain ⟨after, ran, overwritten⟩ :=
      overwrite_single_left (by omega) rightHeld (Nat.le_add_right _ _) scalar
    rw [Nat.add_zero] at scalarRead
    rw [if_pos leftSingle, scalarRead, ok_bind, Kernel.componentwise_single_left _ rightSingle]
    simp only [List.getElem_cons_zero]
    rw [ran]
    refine ⟨after, ?_, overwritten⟩
    rw [List.length_map]
    rfl
  · obtain ⟨after, ran, overwritten⟩ :=
      overwrite_several arithmetic leftSingle rightSingle (by omega) leftHeld rightHeld
        (Nat.le_add_right _ _)
    rw [if_neg leftSingle, ran, Kernel.length_componentwise leftSome rightSome]
    exact ⟨after, rfl, overwritten⟩

/-- A vector operator in place leaves what the same operator on the lists of its operands gives,
and the stack below the operands as it was. -/
theorem Carries.vectorInPlace_yields (operator : VectorOperator) {below left right : List α}
    (carries : machine.Carries (below ++ (left ++ right)))
    (leftSome : 0 < left.length) (rightSome : 0 < right.length) :
    Yields (machine.vectorInPlace arithmetic operator left.length right.length)
      machine.memory.size (below ++ Kernel.vector arithmetic operator left right) := by
  obtain ⟨after, ran, overwritten⟩ :=
    carries.vectorInPlace_overwrites arithmetic operator leftSome rightSome
  exact ⟨_, ran, overwritten.size_eq, overwritten.carries carries⟩

/-- The topmost values change their signs in place. -/
theorem Carries.negateInPlace_yields {below group : List α} {width : Int}
    (carries : machine.Carries (below ++ group)) (exact : width.toNat = group.length) :
    Yields (machine.negateInPlace arithmetic width) machine.memory.size
      (below ++ group.map arithmetic.neg) := by
  have room := carries.length_le
  simp only [List.length_append] at room
  have whole : machine.Carries (below ++ (group ++ [])) := by simpa using carries
  have spec : ∃ after,
      overwrite machine.memory below.length group.length (fun memory offset => do
          return arithmetic.neg (← get memory (below.length + offset))) = .ok after ∧
        Overwritten machine.memory after below.length (group.map arithmetic.neg) := by
    refine overwrite_spec _ (List.length_map _) room ?_
    intro offset bound current same
    rw [List.length_map] at bound
    have held := (same _ (.inr (Nat.le_refl _))).trans (whole.group_held bound)
    simp [get_of_held bound held]
  obtain ⟨after, ran, overwritten⟩ := spec
  have top : machine.top = below.length + (group.map arithmetic.neg).length := by
    simp [carries.top_eq]
  refine ⟨⟨after, machine.top⟩, ?_, overwritten.size_eq, ?_⟩
  · rw [negateInPlace, exact, carries.base_eq, ok_bind, ran, ok_bind, pure_eq_ok]
  · rw [top]
    exact overwritten.carries carries

/-- The topmost arguments of a function are replaced by its value. -/
theorem Carries.callInPlace_yields (function : Builtin) {below arguments : List α}
    (carries : machine.Carries (below ++ arguments))
    (exact : arguments.length = function.arity) :
    Yields (machine.callInPlace arithmetic function) machine.memory.size
      (below ++ [arithmetic.call function arguments]) := by
  have room := carries.length_le
  have some := function.arity_pos
  simp only [List.length_append] at room
  have read : (List.range arguments.length).mapM
      (fun offset => get machine.memory (below.length + offset)) = .ok arguments :=
    Outcome.mapM_range_eq_ok arguments fun offset bound => carries.get_eq bound
  rw [callInPlace, ← exact, carries.base_eq, ok_bind, read, ok_bind]
  exact carries.settle_yields _ (by omega)

end Operators

end Machine

end Formulary
