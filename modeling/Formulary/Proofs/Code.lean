import Formulary.Proofs.Components
import Formulary.Proofs.ListEvaluation

/-!
# Code of an expression

The code of an expression leaves on the stack the vector that the expression denotes, above what was
there before. This is proved by induction on the expression; every step is chosen by the widths of
its operands, and these are the lengths of the vectors that it finds. What the steps rely on besides
is `WellTyped`.

The steps of well-typed code have the widths that their operators are meant for. So they are
balanced: they leave exactly what the shape of a program foretells.
-/

namespace Formulary

open Outcome (ok_bind error_bind pure_eq_ok bind_eq_ok_iff)

variable {α : Type}

/-! ## Steps on vectors -/

namespace Evaluation

open Expression (combine multiply connectScalars compareScalars negateScalar scalar sumApply)

section Answers

variable {arithmetic : Arithmetic α} {setting : Setting} {bound : Number}
  (tolerance : setting.tolerance = some bound) (index : Nat)

/-- The scalar of a constant or cell, apart from what is logged about it. -/
theorem result_load (place : Place) (number : Number) :
    (load arithmetic index place number).result = Expression.load arithmetic number := by
  rw [load, Expression.load]
  simp [Logged.result_bind]

include tolerance in
theorem answer_not (operand : α) :
    (answer arithmetic setting index (.operator .not) [operand]).result =
      (do return [← negateScalar arithmetic bound operand]) := by
  simp [answer, negation, negateScalar, realOperand, decideWith, tolerance, Logged.result_bind]

include tolerance in
theorem answer_logical (operator : Logical) (left right : α) :
    (answer arithmetic setting index (.operator (.logical operator)) [left, right]).result =
      (do return [← connectScalars arithmetic bound operator left right]) := by
  simp [answer, binary, connectScalars, realOperand, decideWith, tolerance, Logged.result_bind]

include tolerance in
theorem answer_comparison (operator : Comparison) (left right : α) :
    (answer arithmetic setting index (.operator (.comparison operator)) [left, right]).result =
      (do return [← compareScalars arithmetic bound operator left right]) := by
  by_cases both : arithmetic.isImaginary left = true ∧ arithmetic.isImaginary right = true
  · simp [answer, binary, compareScalars, comparedOperand, decideZeros, tolerance,
      Logged.result_bind, both]
  · simp [answer, binary, compareScalars, comparedOperand, decideWith, tolerance,
      Logged.result_bind, Expression.compared, both]

/-- A vector operator works on the vectors of its operands. -/
theorem answer_vector (operator : VectorOperator) {left right : Expression}
    {first second : List α} (leftWidth : first.length = left.width) :
    (answer arithmetic setting index (.vector operator left.positiveWidth right.positiveWidth)
      (first ++ second)).result = .ok (Kernel.vector arithmetic operator first second) := by
  have takes : (first ++ second).take left.positiveWidth.val = first := by
    simp [Expression.positiveWidth, ← leftWidth]
  have drops : (first ++ second).drop left.positiveWidth.val = second := by
    simp [Expression.positiveWidth, ← leftWidth]
  rw [answer, takes, drops]
  rfl

section Steps

variable {left right : Expression} {first second : List α} (leftWidth : first.length = left.width)
  (rightWidth : second.length = right.width)

include leftWidth rightWidth

/-- A sum is combined component by component. -/
theorem answer_sumStep (sign : SumSign) :
    (answer arithmetic setting index (Expression.sumStep sign left right)
      (first ++ second)).result =
        .ok (combine arithmetic.zero (sumApply arithmetic sign) first second) := by
  have leftSome : 0 < first.length := by rw [leftWidth]; exact left.width_pos
  have rightSome : 0 < second.length := by rw [rightWidth]; exact right.width_pos
  unfold Expression.sumStep
  split
  case isTrue scalars =>
      obtain ⟨value, rfl⟩ := List.length_eq_one_iff.mp (leftWidth.trans scalars.1)
      obtain ⟨other, rfl⟩ := List.length_eq_one_iff.mp (rightWidth.trans scalars.2)
      cases sign <;> rfl
  case isFalse vectors =>
      cases sign with
      | plus =>
          rw [answer_vector index .add leftWidth,
            Expression.vector_eq_combine arithmetic .add nofun leftSome rightSome]
          rfl
      | minus =>
          rw [answer_vector index .sub leftWidth,
            Expression.vector_eq_combine arithmetic .sub nofun leftSome rightSome]
          rfl

/-- A product is the product of vectors. -/
theorem answer_productStep :
    (answer arithmetic setting index (Expression.productStep left right)
      (first ++ second)).result = .ok (multiply arithmetic first second) := by
  have leftSome : 0 < first.length := by rw [leftWidth]; exact left.width_pos
  have rightSome : 0 < second.length := by rw [rightWidth]; exact right.width_pos
  unfold Expression.productStep multiply
  by_cases leftScalar : left.width = 1
  · have scalars : first.length = 1 ∨ second.length = 1 := .inl (leftWidth.trans leftScalar)
    rw [if_pos leftScalar, if_pos scalars]
    by_cases rightScalar : right.width = 1
    · obtain ⟨value, rfl⟩ := List.length_eq_one_iff.mp (leftWidth.trans leftScalar)
      obtain ⟨other, rfl⟩ := List.length_eq_one_iff.mp (rightWidth.trans rightScalar)
      rw [if_pos rightScalar]
      rfl
    · rw [if_neg rightScalar, answer_vector index .scaleLeft leftWidth,
        Expression.vector_eq_combine arithmetic .scaleLeft nofun leftSome rightSome]
      rfl
  · rw [if_neg leftScalar]
    by_cases rightScalar : right.width = 1
    · have scalars : first.length = 1 ∨ second.length = 1 := .inr (rightWidth.trans rightScalar)
      rw [if_pos rightScalar, if_pos scalars, answer_vector index .scaleRight leftWidth,
        Expression.vector_eq_combine arithmetic .scaleRight nofun leftSome rightSome]
      rfl
    · rw [if_neg rightScalar, if_neg (by omega), answer_vector index .dot leftWidth,
        Expression.vector_dot]

/-- A quotient divides every component by the divisor. -/
theorem answer_quotientStep (divisor : right.width = 1) :
    (answer arithmetic setting index (Expression.quotientStep left right)
      (first ++ second)).result =
        .ok (first.map fun component => arithmetic.div component (scalar arithmetic second)) := by
  have leftSome : 0 < first.length := by rw [leftWidth]; exact left.width_pos
  have rightSome : 0 < second.length := by rw [rightWidth]; exact right.width_pos
  obtain ⟨value, rfl⟩ := List.length_eq_one_iff.mp (rightWidth.trans divisor)
  unfold Expression.quotientStep
  by_cases leftScalar : left.width = 1
  · obtain ⟨other, rfl⟩ := List.length_eq_one_iff.mp (leftWidth.trans leftScalar)
    rw [if_pos leftScalar]
    rfl
  · rw [if_neg leftScalar, answer_vector index .divide leftWidth,
      Expression.vector_eq_combine arithmetic .divide nofun leftSome rightSome,
      Expression.combine_single_right _ _ leftSome]
    rfl

end Steps

end Answers

/-! ## Code on stacks -/

section Code

variable (arithmetic : Arithmetic α) (setting : Setting)

/-- What steps leave above a stack, whatever their place in a program is. -/
def Leaves (steps : List Step) (vector : Except Fault (List α)) : Prop :=
  ∀ index stack, (execAllList arithmetic setting index steps stack).result =
    vector.map fun values => stack ++ values

variable {arithmetic setting}

/-- Code one part after the other leaves one vector above the other. -/
theorem Leaves.append {first second : List Step} {firstVector secondVector : Except Fault (List α)}
    (leavesFirst : Leaves arithmetic setting first firstVector)
    (leavesSecond : Leaves arithmetic setting second secondVector) :
    Leaves arithmetic setting (first ++ second)
      (do return (← firstVector) ++ (← secondVector)) := by
  intro index stack
  rw [execAllList_append, Logged.result_bind, leavesFirst index stack]
  cases firstVector with
  | error cause => rfl
  | ok values =>
      refine (leavesSecond (index + first.length) (stack ++ values)).trans ?_
      cases secondVector with
      | error cause => rfl
      | ok more => exact congrArg Except.ok (List.append_assoc _ _ _)

/-- A step at the end works on the vector that the code before it leaves. -/
theorem Leaves.step {steps : List Step} {step : Step} {vector : Except Fault (List α)}
    (result : List α → Except Fault (List α)) (leaves : Leaves arithmetic setting steps vector)
    (exact : ∀ values, vector = .ok values → values.length = step.operands)
    (answers : ∀ index values, vector = .ok values →
      (answer arithmetic setting index step values).result = result values) :
    Leaves arithmetic setting (steps ++ [step]) (vector >>= result) := by
  intro index stack
  rw [execAllList_append, Logged.result_bind, leaves index stack]
  cases found : vector with
  | error cause => rfl
  | ok values =>
      have last : (execList arithmetic setting (index + steps.length) step
          (stack ++ values)).result = (result values).map fun values => stack ++ values := by
        rw [execList_append (exact values found), Logged.result_bind, answers _ values found]
        cases result values <;> rfl
      simp only [Except.map, ok_bind, execAllList, Logged.bind_eq, Logged.result_bind, last]
      cases result values <;> rfl

/-- A step at the end works on the vectors that two pieces of code before it leave. -/
theorem Leaves.binary {first second : List Step} {step : Step}
    {firstVector secondVector : Except Fault (List α)}
    (result : List α → List α → Except Fault (List α))
    (leavesFirst : Leaves arithmetic setting first firstVector)
    (leavesSecond : Leaves arithmetic setting second secondVector)
    (exact : ∀ values more, firstVector = .ok values → secondVector = .ok more →
      values.length + more.length = step.operands)
    (answers : ∀ index values more, firstVector = .ok values → secondVector = .ok more →
      (answer arithmetic setting index step (values ++ more)).result = result values more) :
    Leaves arithmetic setting (first ++ second ++ [step])
      (do result (← firstVector) (← secondVector)) := by
  have both := leavesFirst.append leavesSecond
  cases firstVector with
  | error cause => exact both.step Except.ok nofun nofun
  | ok values =>
      cases secondVector with
      | error cause => exact both.step Except.ok nofun nofun
      | ok more =>
          refine both.step (fun _ => result values more) ?_ ?_
          · rintro _ ⟨⟩
            rw [List.length_append]
            exact exact values more rfl rfl
          · rintro index _ ⟨⟩
            exact answers index values more rfl rfl

/-- A step without operands leaves its own results. -/
theorem leaves_push {step : Step} {vector : Except Fault (List α)} (pushes : step.operands = 0)
    (answers : ∀ index, (answer arithmetic setting index step []).result = vector) :
    Leaves arithmetic setting [step] vector := by
  have nothing : Leaves arithmetic setting [] (.ok []) :=
    fun _ stack => congrArg Except.ok (List.append_nil stack).symm
  refine nothing.step (fun _ => vector) ?_ ?_
  · rintro _ ⟨⟩
    exact pushes.symm
  · rintro index _ ⟨⟩
    exact answers index

/-- Pushed slots leave their values in order. -/
theorem leaves_slots (slots : List Positive) :
    Leaves arithmetic setting (slots.map .argument)
      (slots.mapM fun slot => input arithmetic setting slot.val) := by
  induction slots with
  | nil =>
      intro index stack
      exact congrArg Except.ok (List.append_nil _).symm
  | cons slot rest inductionHypothesis =>
      have first : Leaves arithmetic setting [.argument slot]
          (do return [← input arithmetic setting slot.val]) :=
        leaves_push rfl fun index => by rw [answer, Logged.bind_eq, Logged.result_bind]; rfl
      have whole := first.append inductionHypothesis
      rw [List.map_cons, List.mapM_cons]
      cases found : input arithmetic setting slot.val <;> simpa [found] using whole

end Code

end Evaluation

/-- What holds of the code of an operand and of the step behind it. -/
theorem Step.forall_ended {holds : Step → Prop} {steps : List Step} {last : Step}
    (first : ∀ step ∈ steps, holds step) (second : holds last) :
    ∀ step ∈ steps ++ [last], holds step :=
  List.forall_mem_append.mpr ⟨first, List.forall_mem_singleton.mpr second⟩

/-- What holds of the code of two operands and of the step behind them. -/
theorem Step.forall_joined {holds : Step → Prop} {left right : List Step} {last : Step}
    (first : ∀ step ∈ left, holds step) (second : ∀ step ∈ right, holds step)
    (third : holds last) : ∀ step ∈ left ++ right ++ [last], holds step :=
  forall_ended (List.forall_mem_append.mpr ⟨first, second⟩) third

namespace Expression

/-- The conditions on widths under which the code of an expression does what the expression means:
comparisons, boolean operators and divisors have scalars, and a function has its arguments. -/
def WellTyped : Expression → Prop
  | call function operand => operand.WellTyped ∧ operand.width = function.arity
  | concat left right => left.WellTyped ∧ right.WellTyped
  | negate operand => operand.WellTyped
  | not operand => operand.WellTyped ∧ operand.width = 1
  | logical _ left right => left.WellTyped ∧ right.WellTyped ∧ left.width = 1 ∧ right.width = 1
  | comparison _ left right => left.WellTyped ∧ right.WellTyped ∧ left.width = 1 ∧ right.width = 1
  | sum _ left right => left.WellTyped ∧ right.WellTyped
  | product left right => left.WellTyped ∧ right.WellTyped
  | quotient left right => left.WellTyped ∧ right.WellTyped ∧ right.width = 1
  | _ => True

theorem operands_sumStep (sign : SumSign) (left right : Expression) :
    (sumStep sign left right).operands = left.width + right.width := by
  unfold sumStep
  split
  case isTrue scalars =>
      rw [scalars.1, scalars.2]
      cases sign <;> rfl
  case isFalse => cases sign <;> rfl

theorem operands_productStep (left right : Expression) :
    (productStep left right).operands = left.width + right.width := by
  unfold productStep
  split
  case isTrue leftScalar =>
      split
      case isTrue rightScalar => rw [leftScalar, rightScalar]; rfl
      case isFalse => rfl
  case isFalse => split <;> rfl

theorem operands_quotientStep {left right : Expression} (divisor : right.width = 1) :
    (quotientStep left right).operands = left.width + right.width := by
  unfold quotientStep
  split
  case isTrue scalar => rw [scalar, divisor]; rfl
  case isFalse => rfl

open Evaluation (Leaves)

variable {arithmetic : Arithmetic α} {setting : Setting} {bound : Number}

/-- A step on two scalars leaves what it computes from them. -/
theorem leaves_scalars {left right : Expression} {step : Step}
    {compute : α → α → Except Fault α} (takes : step.operands = 2)
    (leavesLeft : Leaves arithmetic setting left.code (left.value arithmetic setting bound))
    (leavesRight : Leaves arithmetic setting right.code (right.value arithmetic setting bound))
    (leftScalar : left.width = 1) (rightScalar : right.width = 1)
    (answers : ∀ index value other,
      (Evaluation.answer arithmetic setting index step [value, other]).result =
        (do return [← compute value other])) :
    Leaves arithmetic setting (left.code ++ right.code ++ [step])
      (do
        let values ← left.value arithmetic setting bound
        let more ← right.value arithmetic setting bound
        return [← compute (scalar arithmetic values) (scalar arithmetic more)]) := by
  refine leavesLeft.binary
    (fun values more => do
      return [← compute (scalar arithmetic values) (scalar arithmetic more)]) leavesRight ?_ ?_
  · intro values more denotes denotesMore
    rw [length_value denotes, length_value denotesMore, leftScalar, rightScalar, takes]
  · intro index values more denotes denotesMore
    obtain ⟨value, rfl⟩ := List.length_eq_one_iff.mp ((length_value denotes).trans leftScalar)
    obtain ⟨other, rfl⟩ := List.length_eq_one_iff.mp ((length_value denotesMore).trans rightScalar)
    exact answers index value other

/-- The code of an expression leaves the vector that the expression denotes. -/
theorem leaves_code (tolerance : setting.tolerance = some bound) {expression : Expression}
    (typed : expression.WellTyped) :
    Leaves arithmetic setting expression.code (expression.value arithmetic setting bound) := by
  induction expression with
  | constant found =>
      refine Evaluation.leaves_push rfl fun index => ?_
      rw [Evaluation.answer, Logged.bind_eq, Logged.result_bind, Evaluation.result_load]
      rfl
  | cell named =>
      refine Evaluation.leaves_push rfl fun index => ?_
      rw [Evaluation.answer, Logged.bind_eq, Logged.result_bind, Evaluation.result_load]
      rfl
  | argument declared => exact Evaluation.leaves_slots declared.slots
  | call function operand inductionHypothesis =>
      refine (inductionHypothesis typed.1).step
        (fun values => .ok [arithmetic.call function values]) ?_ fun _ _ _ => rfl
      intro values denotes
      exact (length_value denotes).trans typed.2
  | concat left right leftHypothesis rightHypothesis =>
      exact (leftHypothesis typed.1).append (rightHypothesis typed.2)
  | negate operand inductionHypothesis =>
      refine (inductionHypothesis typed).step (fun values => .ok (values.map arithmetic.neg))
        ?_ fun _ _ _ => rfl
      intro values denotes
      exact length_value denotes
  | not operand inductionHypothesis =>
      refine (inductionHypothesis typed.1).step
        (fun values => do return [← negateScalar arithmetic bound (scalar arithmetic values)]) ?_ ?_
      · intro values denotes
        exact (length_value denotes).trans typed.2
      · intro index values denotes
        obtain ⟨value, rfl⟩ := List.length_eq_one_iff.mp ((length_value denotes).trans typed.2)
        exact Evaluation.answer_not tolerance index value
  | logical operator left right leftHypothesis rightHypothesis =>
      obtain ⟨leftTyped, rightTyped, leftScalar, rightScalar⟩ := typed
      exact leaves_scalars rfl (leftHypothesis leftTyped) (rightHypothesis rightTyped) leftScalar
        rightScalar fun index => Evaluation.answer_logical tolerance index operator
  | comparison operator left right leftHypothesis rightHypothesis =>
      obtain ⟨leftTyped, rightTyped, leftScalar, rightScalar⟩ := typed
      exact leaves_scalars rfl (leftHypothesis leftTyped) (rightHypothesis rightTyped) leftScalar
        rightScalar fun index => Evaluation.answer_comparison tolerance index operator
  | sum sign left right leftHypothesis rightHypothesis =>
      refine (leftHypothesis typed.1).binary
        (fun values more => .ok (combine arithmetic.zero (sumApply arithmetic sign) values more))
        (rightHypothesis typed.2) ?_ ?_
      · intro values more denotes denotesMore
        rw [length_value denotes, length_value denotesMore, operands_sumStep]
      · intro index values more denotes denotesMore
        exact Evaluation.answer_sumStep index (length_value denotes) (length_value denotesMore) sign
  | product left right leftHypothesis rightHypothesis =>
      refine (leftHypothesis typed.1).binary
        (fun values more => .ok (multiply arithmetic values more)) (rightHypothesis typed.2) ?_ ?_
      · intro values more denotes denotesMore
        rw [length_value denotes, length_value denotesMore, operands_productStep]
      · intro index values more denotes denotesMore
        exact Evaluation.answer_productStep index (length_value denotes) (length_value denotesMore)
  | quotient left right leftHypothesis rightHypothesis =>
      obtain ⟨leftTyped, rightTyped, divisor⟩ := typed
      refine (leftHypothesis leftTyped).binary
        (fun values more => .ok (values.map fun component =>
          arithmetic.div component (scalar arithmetic more))) (rightHypothesis rightTyped) ?_ ?_
      · intro values more denotes denotesMore
        rw [length_value denotes, length_value denotesMore, operands_quotientStep divisor]
      · intro index values more denotes denotesMore
        exact Evaluation.answer_quotientStep index (length_value denotes)
          (length_value denotesMore) divisor

theorem wellWidthed_sumStep (sign : SumSign) (left right : Expression) :
    (sumStep sign left right).WellWidthed := by
  unfold sumStep
  split <;> cases sign <;> trivial

theorem wellWidthed_productStep (left right : Expression) :
    (productStep left right).WellWidthed := by
  unfold productStep
  split
  case isTrue leftScalar =>
      split
      case isTrue rightScalar => trivial
      case isFalse => exact leftScalar
  case isFalse =>
      split
      case isTrue rightScalar => exact rightScalar
      case isFalse => trivial

theorem wellWidthed_quotientStep {left right : Expression} (divisor : right.width = 1) :
    (quotientStep left right).WellWidthed := by
  unfold quotientStep
  split
  case isTrue => trivial
  case isFalse => exact divisor

/-- The vector operators in the code have scalars on the sides where they need them, and signs are
changed of something. -/
theorem wellWidthed_code {expression : Expression} (typed : expression.WellTyped) :
    ∀ step ∈ expression.code, step.WellWidthed := by
  induction expression with
  | constant found => exact List.forall_mem_singleton.mpr trivial
  | cell named => exact List.forall_mem_singleton.mpr trivial
  | argument declared =>
      intro step member
      obtain ⟨slot, _, rfl⟩ := List.mem_map.mp member
      trivial
  | call function operand inductionHypothesis =>
      exact Step.forall_ended (inductionHypothesis typed.1) trivial
  | concat left right leftHypothesis rightHypothesis =>
      exact List.forall_mem_append.mpr ⟨leftHypothesis typed.1, rightHypothesis typed.2⟩
  | negate operand inductionHypothesis =>
      refine Step.forall_ended (inductionHypothesis typed) ?_
      exact Int.ofNat_le.mpr operand.width_pos
  | not operand inductionHypothesis => exact Step.forall_ended (inductionHypothesis typed.1) trivial
  | logical operator left right leftHypothesis rightHypothesis =>
      exact Step.forall_joined (leftHypothesis typed.1) (rightHypothesis typed.2.1) trivial
  | comparison operator left right leftHypothesis rightHypothesis =>
      exact Step.forall_joined (leftHypothesis typed.1) (rightHypothesis typed.2.1) trivial
  | sum sign left right leftHypothesis rightHypothesis =>
      exact Step.forall_joined (leftHypothesis typed.1) (rightHypothesis typed.2)
        (wellWidthed_sumStep sign left right)
  | product left right leftHypothesis rightHypothesis =>
      exact Step.forall_joined (leftHypothesis typed.1) (rightHypothesis typed.2)
        (wellWidthed_productStep left right)
  | quotient left right leftHypothesis rightHypothesis =>
      exact Step.forall_joined (leftHypothesis typed.1) (rightHypothesis typed.2.1)
        (wellWidthed_quotientStep typed.2.2)

/-- The code leaves what the shape of a program foretells. -/
theorem balanced_code {expression : Expression} (typed : expression.WellTyped) :
    ∀ step ∈ expression.code, step.Balanced :=
  fun step member => (wellWidthed_code typed step member).balanced

end Expression

end Formulary
