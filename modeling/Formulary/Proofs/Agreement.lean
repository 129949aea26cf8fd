import Formulary.Proofs.Components
import Formulary.Proofs.ListEvaluation

/-!
# Two arithmetics on the same values

An evaluation and a kernel ask their arithmetics for a value, or for a truth value, one operation at
a time. `Step.operations` lists the operations of a step on its operands. `Agreement` says that two
arithmetics give the same for each of them, and nothing about any other operation.

`exec_append` shows that this is enough for a kernel to do to its stack what an evaluation does,
though the two split their stacks, replace illegal complex values and combine vectors in ways of
their own.
-/

namespace Formulary

variable {α : Type}

/-! ## Operations of a step -/

/-- What a step asks of an arithmetic. -/
inductive Operation (α : Type)
  /-- The scalar of a constant or of what a cell holds. -/
  | load (number : Number)
  /-- A builtin function other than the unit step. -/
  | call (function : Builtin) (arguments : List α)
  /-- The question on which the unit step rests. -/
  | isNegative (value : α)
  | apply (operator : Arithmetical) (left right : α)
  | isImaginary (value : α)
  /-- Whether a value is greater than the tolerance. -/
  | exceeds (value : α)
  /-- Whether a value is within the tolerance. -/
  | within (value : α)
  /-- The comparison that is left when both operands were replaced by zero. -/
  | compareZeros (comparison : Comparison)

/-- Two arithmetics give the same for an operation. Where zero is compared with itself, the second
one is not asked; the tolerance decides by itself. -/
def Operation.Agrees (array scalar : Arithmetic α) (bound : Number) : Operation α → Prop
  | load number => array.stored number = scalar.stored number
  | call function arguments => array.call function arguments = scalar.call function arguments
  | isNegative value => array.isNegative value = scalar.isNegative value
  | apply operator left right => array.apply operator left right = scalar.apply operator left right
  | isImaginary value => array.isImaginary value = scalar.isImaginary value
  | exceeds value => array.exceeds value bound = scalar.exceeds value bound
  | within value => array.within value bound = scalar.within value bound
  | compareZeros comparison =>
    array.compare bound comparison array.zero array.zero =
      Tolerance.compareZeros bound comparison

/-- Two arithmetics give the same for some operations, and the unit step is asked about defined
values only. -/
structure Agreement (array scalar : Arithmetic α) (bound : Number) (defined : α → Prop)
    (operations : List (Operation α)) : Prop where
  agrees : ∀ operation ∈ operations, operation.Agrees array scalar bound
  defined : ∀ value, .isNegative value ∈ operations → defined value

section Operations

open Expression (component compared)

variable (arithmetic : Arithmetic α)

/-- The operations of a dot product, of which the sum so far is given. -/
def dotOperations : α → List (α × α) → List (Operation α)
  | _, [] => []
  | total, (left, right) :: rest =>
    let product := arithmetic.mul left right
    .apply .mul left right :: .apply .add total product ::
      dotOperations (arithmetic.add total product) rest

/-- The operations of a vector operator on two groups of values. -/
def vectorOperations (operator : VectorOperator) (left right : List α) : List (Operation α) :=
  if operator = .dot then dotOperations arithmetic arithmetic.zero (left.zip right)
  else
    (List.range (max left.length right.length)).map fun index =>
      .apply operator.componentwise (component arithmetic.zero left index)
        (component arithmetic.zero right index)

/-- The operations of a comparison. -/
def comparisonOperations (comparison : Comparison) (left right : α) : List (Operation α) :=
  match comparison with
  | .greater | .lessEqual =>
    [.apply .sub left right, .exceeds (arithmetic.sub left right)]
  | .less | .greaterEqual =>
    [.apply .sub right left, .exceeds (arithmetic.sub right left)]
  | .equal => [.apply .sub left right, .within (arithmetic.sub left right)]

/-- The operations of a step on its operands. What is only read, passed on or changed in sign is
none. -/
def Step.operations (setting : Setting) (step : Step) (operands : List α) : List (Operation α) :=
  match step, operands with
  | .constant found, _ => [.load found.value]
  | .external cell, _ => [.load (setting.store cell)]
  | .call .step, [value] => [.isNegative value]
  | .call function, arguments => [.call function arguments]
  | .vector found left _, group =>
    vectorOperations arithmetic found (group.take left.val) (group.drop left.val)
  | .operator .not, [value] => [.isImaginary value, .exceeds (arithmetic.realPart value)]
  | .operator (.arithmetical found), [left, right] => [.apply found left right]
  | .operator (.logical _), [left, right] =>
    [.isImaginary left, .isImaginary right, .exceeds (arithmetic.realPart left),
      .exceeds (arithmetic.realPart right)]
  | .operator (.comparison found), [left, right] =>
    .isImaginary left :: .isImaginary right ::
      if arithmetic.isImaginary left && arithmetic.isImaginary right then [.compareZeros found]
      else
        comparisonOperations arithmetic found (compared arithmetic left)
          (compared arithmetic right)
  | _, _ => []

end Operations

/-- Two arithmetics that differ in their operations only: they read and write numbers alike, and
have the same zero, truth values, signs and real parts. The unit step of the second one tells
negative values from others, if they are defined. -/
structure Arithmetic.Parallel (array scalar : Arithmetic α) (defined : α → Prop) : Prop where
  zero_eq : array.zero = scalar.zero
  truth_eq : array.truth = scalar.truth
  neg_eq : array.neg = scalar.neg
  realPart_eq : array.realPart = scalar.realPart
  input_eq : array.input = scalar.input
  output_eq : array.output = scalar.output
  step_eq : ∀ value, defined value →
    scalar.call .step [value] = scalar.truth [value] (!scalar.isNegative value)

namespace Agreement

variable {array scalar : Arithmetic α} {bound : Number} {defined : α → Prop}

/-- An agreement on some operations is one on any part of them. -/
theorem subset {operations part : List (Operation α)}
    (agreement : Agreement array scalar bound defined operations) (contained : part ⊆ operations) :
    Agreement array scalar bound defined part where
  agrees := fun operation member => agreement.agrees operation (contained member)
  defined := fun value member => agreement.defined value (contained member)

/-! ## Operators that agree -/

/-- Two sums of products are the same when every product and every sum on the way is. -/
theorem dot_eq {total : α} {factors : List (α × α)}
    (agreement : Agreement array scalar bound defined (dotOperations scalar total factors)) :
    factors.foldl (fun total factors => array.add total (array.mul factors.1 factors.2)) total =
      factors.foldl (fun total factors => scalar.add total (scalar.mul factors.1 factors.2))
        total := by
  induction factors generalizing total with
  | nil => rfl
  | cons pair rest inductionHypothesis =>
      obtain ⟨left, right⟩ := pair
      have product : array.mul left right = scalar.mul left right :=
        agreement.agrees (.apply .mul left right) (by simp [dotOperations])
      have sum : array.add total (scalar.mul left right) =
          scalar.add total (scalar.mul left right) :=
        agreement.agrees (.apply .add total (scalar.mul left right)) (by simp [dotOperations])
      simp only [List.foldl_cons, product, sum]
      apply inductionHypothesis
      apply agreement.subset
      intro operation member
      exact List.mem_cons_of_mem _ (List.mem_cons_of_mem _ member)

/-- A vector operator gives the same when it does in every component. -/
theorem vector_eq (parallel : array.Parallel scalar defined) {operator : VectorOperator}
    {left right : List α} (leftSome : 0 < left.length) (rightSome : 0 < right.length)
    (agreement : Agreement array scalar bound defined
      (vectorOperations scalar operator left right)) :
    Kernel.vector array operator left right = Kernel.vector scalar operator left right := by
  unfold vectorOperations at agreement
  split at agreement
  case isTrue dot =>
      rw [Kernel.vector, Kernel.vector, if_pos dot, if_pos dot, parallel.zero_eq,
        dot_eq agreement]
  case isFalse noDot =>
      rw [Expression.vector_eq_combine array operator noDot leftSome rightSome,
        Expression.vector_eq_combine scalar operator noDot leftSome rightSome, parallel.zero_eq]
      apply List.map_congr_left
      intro index inside
      exact agreement.agrees _ (List.mem_map_of_mem inside)

/-- A comparison gives the same when the difference does, and the question about it. -/
theorem compare_eq {comparison : Comparison} {left right : α}
    (agreement : Agreement array scalar bound defined
      (comparisonOperations scalar comparison left right)) :
    array.compare bound comparison left right = scalar.compare bound comparison left right := by
  have first := agreement.agrees
  cases comparison <;>
    simp only [comparisonOperations, List.forall_mem_cons, Operation.Agrees, Arithmetic.apply]
      at first <;>
    simp only [Arithmetic.compare, first]

/-- A boolean operator gives the same when both questions do. -/
theorem connect_eq {logical : Logical} {left right : α}
    (first : array.exceeds left bound = scalar.exceeds left bound)
    (second : array.exceeds right bound = scalar.exceeds right bound) :
    array.connect bound logical left right = scalar.connect bound logical left right := by
  rw [Arithmetic.connect, Arithmetic.connect, first, second]

end Agreement

/-! ## Steps that agree -/

namespace Kernel

open Expression (compared)

variable {array scalar : Arithmetic α} {bound : Number} {defined : α → Prop} {setting : Setting}
  (parallel : array.Parallel scalar defined) (index : Nat)

include parallel

/-- An operand of a boolean operator is replaced in the same way. -/
theorem realOperand_eq (operator : Operator) {value : α}
    (same : array.isImaginary value = scalar.isImaginary value) :
    realOperand array value =
      (Evaluation.realOperand scalar index operator value).relog Degradation.substitute := by
  simp [realOperand, Evaluation.realOperand, same, parallel.realPart_eq]

/-- An operand of a comparison is replaced in the same way. -/
theorem comparedOperand_eq (operator : Operator) {value : α}
    (same : array.isImaginary value = scalar.isImaginary value) :
    comparedOperand array value =
      (Evaluation.comparedOperand scalar index operator value).relog Degradation.substitute := by
  simp [comparedOperand, Evaluation.comparedOperand, same, parallel.realPart_eq, parallel.zero_eq]

/-- A negated truth value is the same. -/
theorem negation_eq {value : α}
    (agreement : Agreement array scalar bound defined
      ((Step.operator .not).operations scalar setting [value])) :
    ((realOperand array value).bind fun operand =>
        (Logged.ofExcept (array.negate bound operand)).bind fun flag =>
          Logged.value (array.truth [value] flag)) =
      (Evaluation.negation scalar (some bound) index value).relog Degradation.substitute := by
  have imaginary : array.isImaginary value = scalar.isImaginary value :=
    agreement.agrees (.isImaginary value) (.head _)
  have exceeds : array.exceeds (scalar.realPart value) bound =
      scalar.exceeds (scalar.realPart value) bound :=
    agreement.agrees (.exceeds (scalar.realPart value)) (.tail _ (.head _))
  rw [realOperand_eq parallel index .not imaginary]
  simp [Evaluation.negation, Evaluation.realOperand, Evaluation.decideWith, Arithmetic.negate,
    Logged.bind_assoc, exceeds, parallel.truth_eq]

/-- A boolean operator has the same value. -/
theorem binary_logical_eq {found : Logical} {left right : α}
    (agreement : Agreement array scalar bound defined
      ((Step.operator (.logical found)).operations scalar setting [left, right])) :
    binary array bound (.logical found) left right =
      (Evaluation.binary scalar (some bound) index (.logical found) left right).relog
        Degradation.substitute := by
  have first : array.isImaginary left = scalar.isImaginary left :=
    agreement.agrees (.isImaginary left) (.head _)
  have second : array.isImaginary right = scalar.isImaginary right :=
    agreement.agrees (.isImaginary right) (.tail _ (.head _))
  have flag : array.connect bound found (scalar.realPart left) (scalar.realPart right) =
      scalar.connect bound found (scalar.realPart left) (scalar.realPart right) :=
    Agreement.connect_eq
      (agreement.agrees (.exceeds (scalar.realPart left)) (.tail _ (.tail _ (.head _))))
      (agreement.agrees (.exceeds (scalar.realPart right)) (.tail _ (.tail _ (.tail _ (.head _)))))
  simp [binary, realOperand_eq parallel index (.logical found) first,
    realOperand_eq parallel index (.logical found) second, Evaluation.binary,
    Evaluation.realOperand, Evaluation.decideWith, Logged.bind_assoc, flag, parallel.truth_eq]

/-- The answer to a comparison is the same. A kernel compares whatever took the place of its
operands, also when that is zero on both sides and the tolerance decides alone in an evaluation. -/
theorem compare_compared_eq {found : Comparison} {left right : α}
    (agreement : Agreement array scalar bound defined
      ((Step.operator (.comparison found)).operations scalar setting [left, right])) :
    array.compare bound found (compared scalar left) (compared scalar right) =
      if scalar.isImaginary left && scalar.isImaginary right then
        Tolerance.compareZeros bound found
      else scalar.compare bound found (compared scalar left) (compared scalar right) := by
  split
  case isTrue both =>
      obtain ⟨leftBoth, rightBoth⟩ := Bool.and_eq_true_iff.mp both
      have zeros : array.compare bound found array.zero array.zero =
          Tolerance.compareZeros bound found :=
        agreement.agrees (.compareZeros found) (by simp [Step.operations, both])
      simpa [compared, leftBoth, rightBoth, parallel.zero_eq] using zeros
  case isFalse one =>
      apply Agreement.compare_eq
      apply agreement.subset
      intro operation member
      simp [Step.operations, one, member]

/-- A comparison has the same value. -/
theorem binary_comparison_eq {found : Comparison} {left right : α}
    (agreement : Agreement array scalar bound defined
      ((Step.operator (.comparison found)).operations scalar setting [left, right])) :
    binary array bound (.comparison found) left right =
      (Evaluation.binary scalar (some bound) index (.comparison found) left right).relog
        Degradation.substitute := by
  have first : array.isImaginary left = scalar.isImaginary left :=
    agreement.agrees (.isImaginary left) (.head _)
  have second : array.isImaginary right = scalar.isImaginary right :=
    agreement.agrees (.isImaginary right) (.tail _ (.head _))
  have flag := compare_compared_eq parallel agreement
  simp only [compared] at flag
  simp only [binary, comparedOperand_eq parallel index (.comparison found) first,
    comparedOperand_eq parallel index (.comparison found) second, Evaluation.binary,
    Evaluation.comparedOperand, Logged.bind_eq, Logged.relog_bind, Logged.bind_assoc,
    Logged.relog_noteIf, Logged.pure_eq, Logged.relog_value, Logged.value_bind, flag,
    parallel.truth_eq]
  split
  · simp [Evaluation.decideZeros]
  · simp [Evaluation.decideWith]

/-- A scalar operator with two operands has the same value. -/
theorem binary_eq {operator : Operator} {left right : α}
    (agreement : Agreement array scalar bound defined
      ((Step.operator operator).operations scalar setting [left, right])) :
    binary array bound operator left right =
      (Evaluation.binary scalar (some bound) index operator left right).relog
        Degradation.substitute := by
  cases operator with
  | not => rfl
  | arithmetical found =>
      have same : array.apply found left right = scalar.apply found left right :=
        agreement.agrees (.apply found left right) (.head _)
      simp [binary, Evaluation.binary, same]
  | logical found => exact binary_logical_eq parallel index agreement
  | comparison found => exact binary_comparison_eq parallel index agreement

end Kernel

/-- A kernel reads from its point and its cells what an evaluation reads from its setting. -/
def Step.ReadsAlike (scalar : Arithmetic α) (setting : Setting) (point : List α)
    (cells : Kernel.CellValues α) : Step → Prop
  | .argument slot => Kernel.entry point slot.val = Evaluation.input scalar setting slot.val
  | .external cell =>
    scalar.stored (setting.store cell) = .ok (Kernel.cellValue scalar cells cell)
  | _ => True

namespace Kernel

open Evaluation (answer)

variable {array scalar : Arithmetic α} {bound : Number} {defined : α → Prop} {setting : Setting}
  (parallel : array.Parallel scalar defined) (index : Nat)

include parallel

/-- A kernel calls a builtin function as an evaluation does; the unit step is its own. -/
theorem call_eq {function : Builtin} {arguments : List α}
    (exact : arguments.length = function.arity)
    (agreement : Agreement array scalar bound defined
      ((Step.call function).operations scalar setting arguments)) :
    call array function arguments = scalar.call function arguments := by
  by_cases unit : function = .step
  · subst unit
    obtain ⟨value, rfl⟩ := List.length_eq_one_iff.mp exact
    have same : array.isNegative value = scalar.isNegative value :=
      agreement.agrees (.isNegative value) (.head _)
    rw [parallel.step_eq value (agreement.defined value (.head _)), call, same,
      parallel.truth_eq]
  · have same : array.call function arguments = scalar.call function arguments :=
      agreement.agrees (.call function arguments) (by cases function <;> simp_all [Step.operations])
    cases function <;> first | exact same | exact absurd rfl unit

/-- A step of a kernel does to its stack what an evaluation does with the operands, and reports the
same substitutes. -/
theorem exec_append {step : Step} {below operands point : List α} {cells : CellValues α}
    (tolerance : setting.tolerance = some bound) (exact : operands.length = step.operands)
    (agreement : Agreement array scalar bound defined (step.operations scalar setting operands))
    (reads : step.ReadsAlike scalar setting point cells) :
    exec array bound point cells step (below ++ operands) =
      ((answer scalar setting index step operands).relog Degradation.substitute).bind
        fun results => Logged.value (below ++ results) := by
  cases step with
  | constant found =>
      obtain rfl := List.length_eq_zero_iff.mp exact
      have same : array.stored found.value = scalar.stored found.value :=
        agreement.agrees (.load found.value) (.head _)
      simp [exec, answer, Evaluation.load, same, Logged.bind_assoc]
  | argument slot =>
      obtain rfl := List.length_eq_zero_iff.mp exact
      have same : entry point slot.val = Evaluation.input scalar setting slot.val := reads
      simp [exec, answer, same, Logged.bind_assoc]
  | external cell =>
      obtain rfl := List.length_eq_zero_iff.mp exact
      have same : scalar.stored (setting.store cell) = .ok (cellValue scalar cells cell) := reads
      have zero : cellValue array cells cell = cellValue scalar cells cell := by
        rw [cellValue, cellValue, parallel.zero_eq]
      simp [exec, answer, Evaluation.load, same, zero, Logged.bind_assoc]
  | call function =>
      have split : splitTop (below ++ operands) function.arity = (below, operands) :=
        splitTop_append exact
      simp [exec, answer, split, call_eq parallel exact agreement]
  | negate width =>
      have split : splitTop (below ++ operands) width.toNat = (below, operands) :=
        splitTop_append exact
      simp [exec, answer, split, parallel.neg_eq]
  | vector operator left right =>
      simp only [Step.operands] at exact
      have leftExact : (operands.take left.val).length = left.val := by simp; omega
      have rightExact : (operands.drop left.val).length = right.val := by simp; omega
      have same := Agreement.vector_eq parallel (by rw [leftExact]; exact left.property)
        (by rw [rightExact]; exact right.property) agreement
      have whole : below ++ operands =
          below ++ operands.take left.val ++ operands.drop left.val := by simp
      simp only [exec, whole, splitTop_append rightExact, splitTop_append leftExact, same]
      simp [answer]
  | operator operator =>
      cases operator with
      | not =>
          obtain ⟨value, rfl⟩ := List.length_eq_one_iff.mp exact
          have split : splitTop (below ++ [value]) 1 = (below, [value]) := splitTop_append rfl
          have same := congrArg (·.bind fun result => Logged.value (below ++ [result]))
            (negation_eq parallel index agreement)
          simpa [exec, split, answer, tolerance, Logged.bind_assoc] using same
      | _ =>
          obtain ⟨left, right, rfl⟩ := List.length_eq_two.mp exact
          have split : splitTop (below ++ [left, right]) 2 = (below, [left, right]) :=
            splitTop_append rfl
          simp [exec, split, answer, tolerance, binary_eq parallel index agreement,
            Logged.bind_assoc]

end Kernel

end Formulary
