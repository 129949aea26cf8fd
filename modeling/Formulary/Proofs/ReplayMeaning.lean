import Formulary.Proofs.Code
import Formulary.Proofs.StackHeight
import Formulary.Replay

/-!
# What a replay stands for

A replayed formula denotes a vector, by recursion on the formula: groups side by side are appended,
and a component is one value of a group. Constants are read as the numbers that they are.

The stack of a replay mirrors that of a run if its entries denote, from the bottom up, the values
there. Taking a group of values off it takes whole entries, and splits the last one where it holds
more values than are wanted; what is left then holds components. That keeps the two stacks alike,
however the groups of a program lie across the operands of its steps.
-/

namespace Formulary

open Outcome (bind_eq_ok_iff)
open Expression (combine scalar dot load connectScalars compareScalars negateScalar)

variable {α : Type}

/-! ## The vector of a formula -/

namespace Replayed

section Value

variable (arithmetic : Arithmetic α) (setting : Setting) (bound : Number)

/-- The value of a scalar operator between two formulas. -/
def operatorValue (operator : Operator) (left right : α) : Except Fault α :=
  match operator with
  | .arithmetical found => .ok (arithmetic.apply found left right)
  | .logical found => connectScalars arithmetic bound found left right
  | .comparison found => compareScalars arithmetic bound found left right
  | .not => .ok left

/-- The vector of a vector operator between two formulas: sums go component by component, and a
scalar goes with every component of the other side. -/
def vectorValue (operator : VectorOperator) (left right : List α) : List α :=
  match operator with
  | .add => combine arithmetic.zero arithmetic.add left right
  | .sub => combine arithmetic.zero arithmetic.sub left right
  | .scaleRight => left.map fun component => arithmetic.mul component (scalar arithmetic right)
  | .scaleLeft => right.map fun component => arithmetic.mul (scalar arithmetic left) component
  | .dot => [dot arithmetic left right]
  | .divide => left.map fun component => arithmetic.div component (scalar arithmetic right)

mutual

/-- The vector that a replayed formula denotes. -/
def value : Replayed → Except Fault (List α)
  | .constant found => do return [← load arithmetic found.value]
  | .argument slot => do return [← Evaluation.input arithmetic setting slot.val]
  | .cell named => do return [← load arithmetic (setting.store named)]
  | .call function arguments => do return [arithmetic.call function (← values arguments)]
  | .negate operand => do return (← value operand).map arithmetic.neg
  | .not operand => do
    let operand ← value operand
    return [← negateScalar arithmetic bound (scalar arithmetic operand)]
  | .operator found left right => do
    let left ← value left
    let right ← value right
    return [← operatorValue arithmetic bound found (scalar arithmetic left)
      (scalar arithmetic right)]
  | .vector found left right => do
    let left ← value left
    let right ← value right
    return vectorValue arithmetic found left right
  | .tuple parts => values parts
  | .component whole index => do
    let whole ← value whole
    return (whole.drop index).take 1

/-- The vector of several formulas side by side. -/
def values : List Replayed → Except Fault (List α)
  | [] => return []
  | part :: rest => do
    let first ← value part
    let others ← values rest
    return first ++ others

end

end Value

/-- The operands that are written in a formula, from left to right. -/
def operands : Replayed → List Replayed
  | .call _ arguments => arguments
  | .negate operand => [operand]
  | .not operand => [operand]
  | .operator _ left right => [left, right]
  | .vector _ left right => [left, right]
  | _ => []

variable {arithmetic : Arithmetic α} {setting : Setting} {bound : Number}

theorem values_nil : values arithmetic setting bound [] = .ok [] := by
  rw [values]
  rfl

theorem values_append {first second : List Replayed} {left right : List α}
    (denotesFirst : values arithmetic setting bound first = .ok left)
    (denotesSecond : values arithmetic setting bound second = .ok right) :
    values arithmetic setting bound (first ++ second) = .ok (left ++ right) := by
  induction first generalizing left with
  | nil =>
      cases denotesFirst
      exact denotesSecond
  | cons part rest inductionHypothesis =>
      rw [values] at denotesFirst
      obtain ⟨group, denotes, later⟩ := bind_eq_ok_iff.mp denotesFirst
      obtain ⟨others, denotesRest, finished⟩ := bind_eq_ok_iff.mp later
      cases finished
      rw [List.cons_append, values, denotes, inductionHypothesis denotesRest]
      simp

/-- A single part denotes what it denotes in a list of parts. -/
theorem value_ofParts {parts : List Replayed} {group : List α}
    (denotes : values arithmetic setting bound parts = .ok group) :
    value arithmetic setting bound (.ofParts parts) = .ok group := by
  match parts with
  | [] => simpa [ofParts, value] using denotes
  | [part] =>
      rw [values] at denotes
      obtain ⟨first, denotesPart, later⟩ := bind_eq_ok_iff.mp denotes
      cases later
      simpa [ofParts] using denotesPart
  | first :: second :: rest => simpa [ofParts, value] using denotes

/-- Formulas that denote one value each denote these values side by side. -/
theorem values_of_singles {parts : List Replayed} {group : List α}
    (denotes : List.Forall₂ (fun part value => part.value arithmetic setting bound = .ok [value])
      parts group) : values arithmetic setting bound parts = .ok group := by
  induction denotes with
  | nil => exact values_nil
  | cons denotesFirst _ inductionHypothesis =>
      rw [values, denotesFirst, inductionHypothesis]
      rfl

/-- The components of a formula denote a part of what it denotes. -/
theorem values_components {formula : Replayed} {group : List α}
    (denotes : value arithmetic setting bound formula = .ok group) (first last : Nat) :
    values arithmetic setting bound (Replay.components formula first last) =
      .ok ((group.drop first).take (last - first)) := by
  rw [Replay.components]
  induction last - first generalizing first with
  | zero => simp [values]
  | succ count inductionHypothesis =>
      rw [List.range'_succ, List.map_cons, values, value, denotes, inductionHypothesis]
      simp [Nat.add_comm count 1, List.take_add]

end Replayed

/-! ## Stacks side by side -/

section Mirrors

variable (arithmetic : Arithmetic α) (setting : Setting) (bound : Number)

/-- The entries of a replay stack, from the top down, denote the groups of values of a stack, which
is given from the bottom up. -/
inductive Mirrors : List ReplayEntry → List α → Prop
  | nil : Mirrors [] []
  | cons {entry : ReplayEntry} {below : List ReplayEntry} {group values : List α}
      (denotes : entry.formula.value arithmetic setting bound = .ok group)
      (width : entry.width = group.length) (rest : Mirrors below values) :
      Mirrors (entry :: below) (values ++ group)

end Mirrors

namespace Mirrors

variable {arithmetic : Arithmetic α} {setting : Setting} {bound : Number}
  {stack below : List ReplayEntry} {stackValues belowValues : List α}

/-- The formulas of mirrored entries side by side denote all values. -/
theorem values (mirrors : Mirrors arithmetic setting bound stack stackValues) :
    Replayed.values arithmetic setting bound (stack.reverse.map ReplayEntry.formula) =
      .ok stackValues := by
  induction mirrors with
  | nil => exact Replayed.values_nil
  | @cons entry below group values denotes width rest inductionHypothesis =>
      have alone : Replayed.values arithmetic setting bound [entry.formula] = .ok group := by
        rw [Replayed.values, denotes, Replayed.values_nil]
        simp
      rw [List.reverse_cons, List.map_append]
      exact Replayed.values_append inductionHypothesis alone

/-- The lower components of a split entry are put back one by one. -/
theorem components {formula : Replayed} {group : List α}
    (denotes : formula.value arithmetic setting bound = .ok group) {kept : Nat}
    (within : kept ≤ group.length) (rest : Mirrors arithmetic setting bound below belowValues) :
    Mirrors arithmetic setting bound
      ((Replay.components formula 0 kept).reverse.map (fun part => ⟨part, 1⟩) ++ below)
      (belowValues ++ group.take kept) := by
  induction kept with
  | zero => simpa [Replay.components] using rest
  | succ count inductionHypothesis =>
      have inside : count < group.length := within
      have one : Replayed.value arithmetic setting bound (.component formula count) =
          .ok [group[count]] := by
        rw [Replayed.value, denotes, Outcome.ok_bind, List.drop_eq_getElem_cons inside]
        rfl
      have split : Replay.components formula 0 (count + 1) =
          Replay.components formula 0 count ++ [.component formula count] := by
        simp [Replay.components, List.range'_1_concat]
      rw [split, List.take_succ_eq_append_getElem inside, ← List.append_assoc]
      simp only [List.reverse_append, List.reverse_singleton, List.map_cons, List.cons_append,
        List.nil_append]
      exact .cons one rfl (inductionHypothesis (Nat.le_of_lt inside))

/-- Taking a group off a stack puts formulas for the upper values before the parts that were taken,
and what is left mirrors the lower values. -/
def Takes (arithmetic : Arithmetic α) (setting : Setting) (bound : Number)
    (stack : List ReplayEntry) (parts : List Replayed) (lower upper taken : List α) : Prop :=
  ∃ group rest,
    Replay.takeGroup (upper.length + taken.length : Nat) taken.length parts stack =
      .ok (group, rest) ∧
    Replayed.values arithmetic setting bound group = .ok (upper ++ taken) ∧
    Mirrors arithmetic setting bound rest lower

section Entries

variable {entry : ReplayEntry} {group lower upper taken : List α} {parts : List Replayed}
  (denotesEntry : entry.formula.value arithmetic setting bound = .ok group)
  (width : entry.width = group.length)

include width

/-- An entry within the wanted values is taken as it is, and more may be wanted below it. -/
theorem takes_whole {between : List α} (more : 0 < (between ++ group).length)
    (below_takes : Takes arithmetic setting bound below (entry.formula :: parts) lower between
      (group ++ taken)) :
    Takes arithmetic setting bound (entry :: below) parts lower (between ++ group) taken := by
  obtain ⟨found, left, takes, denotesFound, mirrored⟩ := below_takes
  refine ⟨found, left, ?_, by rw [denotesFound, List.append_assoc], mirrored⟩
  rw [List.length_append] at more
  simp only [List.length_append, Int.natCast_add] at takes ⊢
  rw [Replay.takeGroup, if_pos (by omega), if_neg (by omega), width, Int.add_comm _ _, ← takes]
  congr 1 <;> omega

include denotesEntry

/-- An entry that holds more values than are wanted is split into components. -/
theorem takes_split {between : List α} (kept : 0 < between.length) (more : 0 < upper.length)
    (group_eq : group = between ++ upper)
    (denotes : Replayed.values arithmetic setting bound parts = .ok taken)
    (rest : Mirrors arithmetic setting bound below belowValues) :
    Takes arithmetic setting bound (entry :: below) parts (belowValues ++ between) upper taken := by
  subst group_eq
  rw [List.length_append, Int.natCast_add] at width
  have size : entry.width.toNat - between.length = upper.length := by omega
  have upperParts := Replayed.values_components denotesEntry between.length entry.width.toNat
  rw [size, List.drop_left, List.take_length] at upperParts
  have lowerParts := components denotesEntry
    (show between.length ≤ (between ++ upper).length by simp) rest
  rw [List.take_left] at lowerParts
  refine ⟨_, _, ?_, Replayed.values_append upperParts denotes, lowerParts⟩
  have split : ((taken.length : Int) + entry.width -
      (upper.length + taken.length : Nat)).toNat = between.length := by omega
  rw [Replay.takeGroup, if_pos (by omega), if_pos (by omega), split]

end Entries

/-- Taking a group takes formulas that denote the topmost values, and what is left mirrors the
values below them. -/
theorem takeGroup (mirrors : Mirrors arithmetic setting bound stack stackValues)
    {lower upper : List α} (split : stackValues = lower ++ upper) {parts : List Replayed}
    {taken : List α}
    (denotes : Replayed.values arithmetic setting bound parts = .ok taken) :
    Takes arithmetic setting bound stack parts lower upper taken := by
  induction mirrors generalizing upper parts taken with
  | nil =>
      obtain ⟨rfl, rfl⟩ := List.append_eq_nil_iff.mp split.symm
      exact ⟨parts, [], by simp [Replay.takeGroup], denotes, .nil⟩
  | @cons entry below group values denotesEntry width rest inductionHypothesis =>
      by_cases none : upper = []
      · subst none
        rw [List.append_nil] at split
        subst split
        exact ⟨parts, entry :: below, by simp [Replay.takeGroup], denotes,
          .cons denotesEntry width rest⟩
      have more : 0 < upper.length := List.length_pos_iff.mpr none
      have whole : ∀ between, values = lower ++ between → upper = between ++ group →
          Takes arithmetic setting bound (entry :: below) parts lower upper taken := by
        rintro between rfl rfl
        have denotesMore : Replayed.values arithmetic setting bound (entry.formula :: parts) =
            .ok (group ++ taken) := by
          rw [Replayed.values, denotesEntry, denotes]
          rfl
        exact takes_whole width more (inductionHypothesis rfl denotesMore)
      rcases List.append_eq_append_iff.mp split with
        ⟨between, rfl, group_eq⟩ | ⟨between, values_eq, upper_eq⟩
      · by_cases exact : between = []
        · subst exact
          exact whole [] (by simp) (by simpa using group_eq.symm)
        · exact takes_split denotesEntry width (List.length_pos_iff.mpr exact) more group_eq
            denotes rest
      · exact whole between values_eq upper_eq

/-- A group that is taken as one formula denotes the topmost values. -/
theorem popGroup {lower upper : List α}
    (mirrors : Mirrors arithmetic setting bound stack (lower ++ upper)) (width : Int)
    (exact : width = upper.length) :
    ∃ operand rest, Replay.popGroup width stack = .ok (operand, rest) ∧
      operand.value arithmetic setting bound = .ok upper ∧
      Mirrors arithmetic setting bound rest lower := by
  obtain ⟨parts, rest, takes, denotes, mirrored⟩ := mirrors.takeGroup rfl Replayed.values_nil
  rw [List.append_nil] at denotes
  refine ⟨.ofParts parts, rest, ?_, Replayed.value_ofParts denotes, mirrored⟩
  rw [Replay.popGroup, exact]
  simp only [List.length_nil, Nat.add_zero, Int.natCast_zero] at takes
  rw [takes]
  rfl

/-- Two groups that are taken one after the other denote the topmost values. -/
theorem popPair {lower left right : List α}
    (mirrors : Mirrors arithmetic setting bound stack (lower ++ left ++ right))
    (leftWidth rightWidth : Int) (leftExact : leftWidth = left.length)
    (rightExact : rightWidth = right.length) :
    ∃ first second middle rest, Replay.popGroup rightWidth stack = .ok (second, middle) ∧
      Replay.popGroup leftWidth middle = .ok (first, rest) ∧
      first.value arithmetic setting bound = .ok left ∧
      second.value arithmetic setting bound = .ok right ∧
      Mirrors arithmetic setting bound rest lower := by
  obtain ⟨second, middle, poppedSecond, denotesSecond, mirrorsMiddle⟩ :=
    mirrors.popGroup rightWidth rightExact
  obtain ⟨first, rest, poppedFirst, denotesFirst, mirrored⟩ :=
    mirrorsMiddle.popGroup leftWidth leftExact
  exact ⟨first, second, middle, rest, poppedSecond, poppedFirst, denotesFirst, denotesSecond,
    mirrored⟩

/-- Values that are taken one by one are denoted one by one. -/
theorem popScalars {lower upper : List α}
    (mirrors : Mirrors arithmetic setting bound stack (lower ++ upper)) {parts : List Replayed}
    {taken : List α}
    (denotes : List.Forall₂ (fun part value => part.value arithmetic setting bound = .ok [value])
      parts taken) :
    ∃ operands rest, Replay.popScalars upper.length parts stack = .ok (operands, rest) ∧
      List.Forall₂ (fun part value => part.value arithmetic setting bound = .ok [value])
        operands (upper ++ taken) ∧
      Mirrors arithmetic setting bound rest lower := by
  induction upper using List.reverseRecOn generalizing stack parts taken with
  | nil => exact ⟨parts, stack, rfl, denotes, by simpa using mirrors⟩
  | append_singleton others last inductionHypothesis =>
      rw [← List.append_assoc] at mirrors
      obtain ⟨operand, rest, popped, denotesOperand, mirrored⟩ :=
        mirrors.popGroup 1 rfl
      obtain ⟨operands, left, poppedRest, denotesAll, mirroredRest⟩ :=
        inductionHypothesis mirrored (.cons denotesOperand denotes)
      refine ⟨operands, left, ?_, by simpa using denotesAll, mirroredRest⟩
      rw [List.length_append, List.length_singleton, Replay.popScalars, popped]
      exact poppedRest

end Mirrors

/-! ## Steps side by side -/

namespace Step

/-- Whether the widths of a step are those that a formula shows: no negation has a width below zero,
and a scaled or divided vector has a scalar on the other side. -/
def Regular : Step → Prop
  | negate width => 0 ≤ width
  | vector .scaleRight _ right => right.val = 1
  | vector .scaleLeft left _ => left.val = 1
  | vector .divide _ right => right.val = 1
  | _ => True

/-- The widths of the operands of a step, from left to right. -/
def operandWidths : Step → List Nat
  | call function => List.replicate function.arity 1
  | negate width => [width.toNat]
  | operator found => List.replicate found.operands 1
  | vector _ left right => [left.val, right.val]
  | _ => []

theorem Regular.balanced {step : Step} (regular : step.Regular) : step.Balanced := by
  cases step with
  | vector operator left right =>
      have leftPositive := left.property
      have rightPositive := right.property
      cases operator <;> simp only [Regular, Balanced] at regular ⊢ <;> omega
  | _ => trivial

end Step

/-- Operands that are written denote the values that are consumed, group by group. -/
def Consumes (arithmetic : Arithmetic α) (setting : Setting) (bound : Number)
    (operands : List Replayed) (widths : List Nat) (consumed : List α) : Prop :=
  ∃ groups : List (List α), groups.flatten = consumed ∧ groups.map List.length = widths ∧
    List.Forall₂ (fun operand group => operand.value arithmetic setting bound = .ok group)
      operands groups

theorem Consumes.singles {arithmetic : Arithmetic α} {setting : Setting} {bound : Number}
    {operands : List Replayed} {consumed : List α}
    (denotes : List.Forall₂ (fun operand value =>
      operand.value arithmetic setting bound = .ok [value]) operands consumed) :
    Consumes arithmetic setting bound operands (List.replicate consumed.length 1) consumed :=
  ⟨consumed.map fun value => [value], by rw [← List.flatMap_def, List.flatMap_singleton'],
    by simp [Function.comp_def], List.forall₂_map_right_iff.mpr denotes⟩

/-- A vector operator with the widths of its step has the value that its formula shows. -/
theorem Replayed.vector_eq_vectorValue (arithmetic : Arithmetic α) {operator : VectorOperator}
    {leftWidth rightWidth : Positive}
    (regular : (Step.vector operator leftWidth rightWidth).Regular)
    {left right : List α} (leftExact : left.length = leftWidth.val)
    (rightExact : right.length = rightWidth.val) :
    Kernel.vector arithmetic operator left right = vectorValue arithmetic operator left right := by
  have leftSome : 0 < left.length := by rw [leftExact]; exact leftWidth.property
  have rightSome : 0 < right.length := by rw [rightExact]; exact rightWidth.property
  cases operator with
  | add => exact Expression.vector_eq_combine arithmetic .add nofun leftSome rightSome
  | sub => exact Expression.vector_eq_combine arithmetic .sub nofun leftSome rightSome
  | dot => exact Expression.vector_dot arithmetic left right
  | scaleRight =>
      obtain ⟨value, rfl⟩ := List.length_eq_one_iff.mp (rightExact.trans regular)
      rw [Expression.vector_eq_combine arithmetic .scaleRight nofun leftSome rightSome,
        Expression.combine_single_right _ _ leftSome]
      rfl
  | divide =>
      obtain ⟨value, rfl⟩ := List.length_eq_one_iff.mp (rightExact.trans regular)
      rw [Expression.vector_eq_combine arithmetic .divide nofun leftSome rightSome,
        Expression.combine_single_right _ _ leftSome]
      rfl
  | scaleLeft =>
      obtain ⟨value, rfl⟩ := List.length_eq_one_iff.mp (leftExact.trans regular)
      rw [Expression.vector_eq_combine arithmetic .scaleLeft nofun leftSome rightSome,
        Expression.combine_single_left _ _ rightSome]
      rfl

/-- A scalar operator has the value that its formula shows. -/
theorem Replayed.answer_operator {arithmetic : Arithmetic α} {setting : Setting} {bound : Number}
    (tolerance : setting.tolerance = some bound) (index : Nat) {operator : Operator}
    (binary : operator ≠ .not) (left right : α) :
    (Evaluation.answer arithmetic setting index (.operator operator) [left, right]).result =
      (do return [← operatorValue arithmetic bound operator left right]) := by
  cases operator with
  | arithmetical found => rfl
  | logical found => exact Evaluation.answer_logical tolerance index found left right
  | comparison found => exact Evaluation.answer_comparison tolerance index found left right
  | not => exact absurd rfl binary

/-- The results of a regular vector operator are as wide as foretold. -/
theorem Step.Regular.resultWidth_eq {operator : VectorOperator} {left right : Positive}
    (regular : (Step.vector operator left right).Regular) :
    operator.resultWidth left.val right.val = (Step.vector operator left right).results := by
  have leftPositive := left.property
  have rightPositive := right.property
  cases operator <;> simp only [Regular, VectorOperator.resultWidth, results] at regular ⊢ <;> omega

/-- A number that has a scalar is not too large. -/
theorem Domain.fits_of_stored {domain : Domain} {number : Number}
    {found : domain.Scalar × Bool} (stored : domain.arithmetic.stored number = .ok found) :
    number.isTooLarge = false := by
  cases number with
  | int whole =>
      have converts : ∃ double, Tolerance.doubleOfInt whole = .ok double := by
        cases domain with
        | real =>
            obtain ⟨double, converted, _⟩ := Outcome.map_eq_ok_iff.mp stored
            exact ⟨double, converted⟩
        | complex =>
            obtain ⟨_, inputs, _⟩ := Outcome.map_eq_ok_iff.mp stored
            obtain ⟨double, converted, _⟩ := Outcome.map_eq_ok_iff.mp inputs
            exact ⟨double, converted⟩
      obtain ⟨double, converted⟩ := converts
      unfold Tolerance.doubleOfInt at converted
      split at converted
      case h_1 found some => simp [Number.isTooLarge, some]
      case h_2 => cases converted
  | _ => rfl

namespace Mirrors

variable {domain : Domain} {setting : Setting} {bound : Number} {stack : List ReplayEntry}

/-- A step of a replay leads to a stack that mirrors the values after it, and the operands of the
formula that it makes denote the values that it consumes. -/
def Follows (arithmetic : Arithmetic α) (setting : Setting) (bound : Number) (step : Step)
    (stack : List ReplayEntry) (consumed after : List α) : Prop :=
  ∃ entry rest, Replay.step step stack = .ok (entry :: rest) ∧
    Mirrors arithmetic setting bound (entry :: rest) after ∧
    Consumes arithmetic setting bound entry.formula.operands step.operandWidths consumed

/-- A step that only computes a scalar puts it, and its formula, on top of mirrored stacks. -/
theorem pushStep {step : Step} {lower results : List domain.Scalar}
    {computation : Logged Degradation domain.Scalar}
    (mirrors : Mirrors domain.arithmetic setting bound stack (lower ++ [])) (formula : Replayed)
    (answered : (computation.bind fun value => Logged.value [value]).result = .ok results)
    (denotes : ∀ value, computation.result = .ok value →
      formula.value domain.arithmetic setting bound = .ok [value] ∧
        Replay.step step stack = .ok (⟨formula, 1⟩ :: stack))
    (leaf : formula.operands = []) (none : step.operandWidths = []) :
    Follows domain.arithmetic setting bound step stack [] (lower ++ results) := by
  obtain ⟨value, computed, finished⟩ := Logged.result_bind_eq_ok_iff.mp answered
  cases finished
  obtain ⟨denoted, stepped⟩ := denotes value computed
  rw [List.append_nil] at mirrors
  refine ⟨⟨formula, 1⟩, stack, stepped, .cons denoted rfl mirrors, ?_⟩
  rw [leaf, none]
  exact ⟨[], rfl, rfl, .nil⟩

/-- A scalar operator on mirrored stacks takes two scalars. -/
theorem binaryStep (tolerance : setting.tolerance = some bound) (index : Nat) {operator : Operator}
    (binary : operator ≠ .not) {lower results : List domain.Scalar} {left right : domain.Scalar}
    (mirrors : Mirrors domain.arithmetic setting bound stack (lower ++ [left, right]))
    (answered : (Evaluation.answer domain.arithmetic setting index (.operator operator)
      [left, right]).result = .ok results) :
    Follows domain.arithmetic setting bound (.operator operator) stack [left, right]
      (lower ++ results) := by
  rw [show lower ++ [left, right] = lower ++ [left] ++ [right] by simp] at mirrors
  obtain ⟨first, second, middle, rest, poppedSecond, poppedFirst, denotesFirst, denotesSecond,
    mirrored⟩ := mirrors.popPair 1 1 rfl rfl
  rw [Replayed.answer_operator tolerance index binary] at answered
  obtain ⟨result, decided, finished⟩ := bind_eq_ok_iff.mp answered
  cases finished
  have two : operator.operands = 2 := by
    cases operator with
    | not => exact absurd rfl binary
    | _ => rfl
  refine ⟨⟨.operator operator first second, 1⟩, rest, ?_, .cons ?_ rfl mirrored, ?_⟩
  · cases operator with
    | not => exact absurd rfl binary
    | _ =>
        simp only [Replay.step, poppedSecond, poppedFirst, Outcome.ok_bind]
        rfl
  · rw [Replayed.value, denotesFirst, denotesSecond, Outcome.ok_bind, Outcome.ok_bind,
      show scalar _ [left] = left from rfl, show scalar _ [right] = right from rfl, decided]
    rfl
  · rw [Step.operandWidths, two]
    exact .singles (.cons denotesFirst (.cons denotesSecond .nil))

/-- A vector operator on mirrored stacks takes its two vectors. -/
theorem vectorStep {operator : VectorOperator} {leftWidth rightWidth : Positive}
    (regular : (Step.vector operator leftWidth rightWidth).Regular)
    {lower left right : List domain.Scalar}
    (mirrors : Mirrors domain.arithmetic setting bound stack (lower ++ (left ++ right)))
    (leftExact : left.length = leftWidth.val) (rightExact : right.length = rightWidth.val) :
    Follows domain.arithmetic setting bound (.vector operator leftWidth rightWidth) stack
      (left ++ right) (lower ++ Kernel.vector domain.arithmetic operator left right) := by
  rw [← List.append_assoc] at mirrors
  obtain ⟨first, second, middle, rest, poppedSecond, poppedFirst, denotesFirst, denotesSecond,
    mirrored⟩ := mirrors.popPair leftWidth.val rightWidth.val (by rw [leftExact])
      (by rw [rightExact])
  refine ⟨⟨.vector operator first second, operator.resultWidth leftWidth.val rightWidth.val⟩,
    rest, ?_, .cons ?_ ?_ mirrored, ?_⟩
  · simp only [Replay.step, poppedSecond, poppedFirst, Outcome.ok_bind]
    rfl
  · rw [Replayed.value, denotesFirst, denotesSecond, Outcome.ok_bind, Outcome.ok_bind,
      Replayed.vector_eq_vectorValue _ regular leftExact rightExact]
    rfl
  · rw [Kernel.length_vector _ operator leftExact rightExact, regular.resultWidth_eq]
  · exact ⟨[left, right], by simp, by simp [Step.operandWidths, leftExact, rightExact],
      .cons denotesFirst (.cons denotesSecond .nil)⟩

/-- A call on mirrored stacks takes as many scalars as the function has arguments. -/
theorem callStep (function : Builtin) {lower operands : List domain.Scalar}
    (mirrors : Mirrors domain.arithmetic setting bound stack (lower ++ operands))
    (exact : operands.length = function.arity) :
    Follows domain.arithmetic setting bound (.call function) stack operands
      (lower ++ [domain.arithmetic.call function operands]) := by
  obtain ⟨parts, rest, popped, denotes, mirrored⟩ := mirrors.popScalars .nil
  rw [List.append_nil] at denotes
  refine ⟨⟨.call function parts, 1⟩, rest, ?_, .cons ?_ rfl mirrored, ?_⟩
  · rw [Replay.step, ← exact, popped]
    rfl
  · rw [Replayed.value, Replayed.values_of_singles denotes]
    rfl
  · rw [Step.operandWidths, ← exact]
    exact .singles denotes

/-- A negation on mirrored stacks takes all its values as one group. -/
theorem negateStep {lower operands : List domain.Scalar}
    (mirrors : Mirrors domain.arithmetic setting bound stack (lower ++ operands)) :
    Follows domain.arithmetic setting bound (.negate operands.length) stack operands
      (lower ++ operands.map domain.arithmetic.neg) := by
  obtain ⟨operand, rest, popped, denotes, mirrored⟩ := mirrors.popGroup _ rfl
  refine ⟨⟨.negate operand, operands.length⟩, rest, ?_, .cons ?_ ?_ mirrored, ?_⟩
  · rw [Replay.step, popped]
    rfl
  · rw [Replayed.value, denotes]
    rfl
  · rw [List.length_map]
  · exact ⟨[operands], by simp, by simp [Step.operandWidths], .cons denotes .nil⟩

/-- The negation of a truth value on mirrored stacks takes one scalar. -/
theorem notStep (tolerance : setting.tolerance = some bound) (index : Nat)
    {lower results : List domain.Scalar} {value : domain.Scalar}
    (mirrors : Mirrors domain.arithmetic setting bound stack (lower ++ [value]))
    (answered : (Evaluation.answer domain.arithmetic setting index (.operator .not)
      [value]).result = .ok results) :
    Follows domain.arithmetic setting bound (.operator .not) stack [value] (lower ++ results) := by
  obtain ⟨operand, rest, popped, denotes, mirrored⟩ := mirrors.popGroup 1 rfl
  rw [Evaluation.answer_not tolerance] at answered
  obtain ⟨result, negated, finished⟩ := bind_eq_ok_iff.mp answered
  cases finished
  refine ⟨⟨.not operand, 1⟩, rest, ?_, .cons ?_ rfl mirrored, .singles (.cons denotes .nil)⟩
  · simp only [Replay.step, popped, Outcome.ok_bind]
    rfl
  · rw [Replayed.value, denotes, Outcome.ok_bind, show scalar _ [value] = value from rfl, negated]
    rfl

/-- A step on mirrored stacks leaves mirrored stacks, and the operands of the formula that it makes
denote the values that it consumes. -/
theorem step (tolerance : setting.tolerance = some bound) (index : Nat) {step : Step}
    (regular : step.Regular) {lower operands results : List domain.Scalar}
    (mirrors : Mirrors domain.arithmetic setting bound stack (lower ++ operands))
    (exact : operands.length = step.operands)
    (answered : (Evaluation.answer domain.arithmetic setting index step operands).result =
      .ok results) :
    Follows domain.arithmetic setting bound step stack operands (lower ++ results) := by
  cases step with
  | constant constant =>
      obtain rfl := List.length_eq_zero_iff.mp exact
      refine mirrors.pushStep (.constant constant) answered (fun value loaded => ?_) rfl rfl
      rw [Evaluation.result_load] at loaded
      obtain ⟨found, stored, _⟩ := bind_eq_ok_iff.mp loaded
      refine ⟨?_, ?_⟩
      · rw [Replayed.value, loaded]
        rfl
      · rw [Replay.step, if_neg (Bool.eq_false_iff.mp (Domain.fits_of_stored stored))]
  | argument slot =>
      obtain rfl := List.length_eq_zero_iff.mp exact
      refine mirrors.pushStep (.argument slot) answered (fun value read => ⟨?_, rfl⟩) rfl rfl
      rw [Logged.result_ofExcept] at read
      rw [Replayed.value, read]
      rfl
  | external cell =>
      obtain rfl := List.length_eq_zero_iff.mp exact
      refine mirrors.pushStep (.cell cell) answered (fun value loaded => ⟨?_, rfl⟩) rfl rfl
      rw [Evaluation.result_load] at loaded
      rw [Replayed.value, loaded]
      rfl
  | call function =>
      cases answered
      exact mirrors.callStep function exact
  | negate width =>
      cases answered
      have whole : width = operands.length := by
        simp only [Step.operands] at exact
        simp only [Step.Regular] at regular
        omega
      subst whole
      exact mirrors.negateStep
  | vector operator left right =>
      simp only [Step.operands] at exact
      have leftExact : (operands.take left.val).length = left.val := by simp; omega
      have rightExact : (operands.drop left.val).length = right.val := by simp; omega
      rw [← List.take_append_drop left.val operands] at mirrors
      cases answered
      simpa using mirrors.vectorStep regular leftExact rightExact
  | operator operator =>
      cases operator with
      | not =>
          obtain ⟨value, rfl⟩ := List.length_eq_one_iff.mp exact
          exact mirrors.notStep tolerance index answered
      | _ =>
          obtain ⟨left, right, rfl⟩ := List.length_eq_two.mp exact
          exact mirrors.binaryStep tolerance index (by simp) answered

/-- Steps on mirrored stacks leave mirrored stacks. -/
theorem run (tolerance : setting.tolerance = some bound) {steps : List Step} {index first : Nat}
    {shape final : Shape} {values results : List domain.Scalar}
    (regular : ∀ step ∈ steps, step.Regular)
    (extended : Shape.extendAll first shape steps = .ok final)
    (tall : shape.height ≤ values.length)
    (mirrors : Mirrors domain.arithmetic setting bound stack values)
    (ran : (Evaluation.execAllList domain.arithmetic setting index steps values).result =
      .ok results) :
    ∃ after, Replay.run steps stack = .ok after ∧
      Mirrors domain.arithmetic setting bound after results := by
  induction steps generalizing index first shape stack values with
  | nil =>
      cases ran
      exact ⟨stack, rfl, mirrors⟩
  | cons step rest inductionHypothesis =>
      obtain ⟨reached, extendedFirst, extendedRest⟩ := Shape.extendAll_cons_iff.mp extended
      have follows := Shape.extend_follows extendedFirst
      obtain ⟨lower, operands, rfl, exact⟩ :=
        Kernel.exists_append_of_le (Nat.le_trans follows.enough tall)
      obtain ⟨next, ranFirst, ranRest⟩ := Logged.result_bind_eq_ok_iff.mp ran
      have reaches := Evaluation.height_le_of_execList follows tall ranFirst
      rw [Evaluation.execList_append exact] at ranFirst
      obtain ⟨found, answered, finished⟩ := Logged.result_bind_eq_ok_iff.mp ranFirst
      cases finished
      rw [List.forall_mem_cons] at regular
      obtain ⟨entry, below, stepped, mirrored, _⟩ :=
        mirrors.step tolerance index regular.1 exact answered
      obtain ⟨after, replayed, mirroredAfter⟩ :=
        inductionHypothesis regular.2 extendedRest reaches mirrored ranRest
      exact ⟨after, by rw [Replay.run, stepped]; exact replayed, mirroredAfter⟩

end Mirrors

/-- A replay mirrors a run. After any number of steps that a run takes, the entries of the replay
denote, from the bottom up, the values on the stack of the run; and the operands that are written
for the next step denote the values that this step consumes, each its own group. A run that is
supplied with what it reads takes every step. -/
theorem replay_mirrors_run (program : Program) (regular : ∀ step ∈ program.steps, step.Regular)
    (domain : Domain) (inputs : List Number) (store : Store) (bound : Number) :
    let setting : Setting := ⟨inputs, store, some bound⟩
    (setting.Supplies domain program →
      ∀ count, ∃ machine, program.machineAfter domain setting count = .ok machine) ∧
    ∀ count machine, program.machineAfter domain setting count = .ok machine →
      ∃ stack, Replay.run (program.steps.take count) [] = .ok stack ∧
        Mirrors domain.arithmetic setting bound stack machine.values ∧
        ∀ step after, program.steps[count]? = some step →
          program.machineAfter domain setting (count + 1) = .ok after →
          ∃ entry rest, Replay.step step stack = .ok (entry :: rest) ∧
            Mirrors domain.arithmetic setting bound (entry :: rest) after.values ∧
            Consumes domain.arithmetic setting bound entry.formula.operands step.operandWidths
              (machine.values.drop (machine.values.length - step.operands)) := by
  intro setting
  refine ⟨fun supplied count => ?_, fun count machine ran => ?_⟩
  · obtain ⟨machine, _, reached, _⟩ := Program.machineAfter_of_balanced supplied
      (fun step member => (regular step member).balanced) count
    exact ⟨machine, reached⟩
  have regularTake : ∀ step ∈ program.steps.take count, step.Regular :=
    fun step member => regular step (List.mem_of_mem_take member)
  obtain ⟨shape, extended, later⟩ := Shape.exists_take program count
  have carries := Machine.start_carries domain.arithmetic program.shape.depth
  obtain ⟨values, listed, _, carried, tall⟩ :=
    Evaluation.execAll_succeeds_on_list _ setting extended carries (Nat.le_refl _) ran
  obtain ⟨stack, replayed, mirrors⟩ :=
    Mirrors.run rfl regularTake extended (Nat.le_refl _) .nil listed
  rw [carried.values_eq]
  refine ⟨stack, replayed, mirrors, ?_⟩
  intro step after here ranAfter
  obtain ⟨next, extendedNext, _⟩ := Shape.exists_take program (count + 1)
  obtain ⟨results, listedNext, _, carriedNext, _⟩ :=
    Evaluation.execAll_succeeds_on_list _ setting extendedNext carries (Nat.le_refl _) ranAfter
  rw [List.take_add_one, here, Option.toList_some] at extendedNext listedNext
  obtain ⟨_, again, one⟩ := Shape.extendAll_append_iff.mp extendedNext
  obtain rfl := Except.ok.inj (extended.symm.trans again)
  obtain ⟨_, extendedStep, _⟩ := Shape.extendAll_cons_iff.mp one
  obtain ⟨lower, operands, rfl, exact⟩ := Kernel.exists_append_of_le
    (Nat.le_trans (Shape.extend_follows extendedStep).enough tall)
  rw [Evaluation.execAllList_append] at listedNext
  obtain ⟨_, listedAgain, ranStep⟩ := Logged.result_bind_eq_ok_iff.mp listedNext
  obtain rfl := Except.ok.inj (listed.symm.trans listedAgain)
  obtain ⟨_, ranStep, finished⟩ := Logged.result_bind_eq_ok_iff.mp ranStep
  cases finished
  rw [Evaluation.execList_append exact] at ranStep
  obtain ⟨found, answered, finished⟩ := Logged.result_bind_eq_ok_iff.mp ranStep
  cases finished
  obtain ⟨entry, rest, stepped, mirrored, consumes⟩ :=
    mirrors.step rfl _ (regular step (List.mem_of_getElem? here)) exact answered
  refine ⟨entry, rest, stepped, by rwa [carriedNext.values_eq], ?_⟩
  rwa [← exact, List.length_append, Nat.add_sub_cancel, List.drop_left]

/-- Two arguments whose signs are changed together, and of which one is taken from the other. -/
def splitPair : Program where
  steps := [.argument ⟨1, Nat.one_pos⟩, .argument ⟨2, Nat.two_pos⟩, .negate 2,
    .operator (.arithmetical .sub)]
  shape := ⟨2, 1, true, 2⟩
  shape_eq := rfl

/-- The group that the negation leaves is split for the difference. -/
theorem replay_mirrors_splitPair :
    let setting : Setting := ⟨[.real 3, .real 5], fun _ => .real 0, some (.real 0)⟩
    ∃ machine stack, splitPair.machineAfter .real setting 4 = .ok machine ∧
      Replay.run splitPair.steps [] = .ok stack ∧
      Mirrors Domain.real.arithmetic setting (.real 0) stack machine.values := by
  intro setting
  have regular : ∀ step ∈ splitPair.steps, step.Regular := by
    simp [splitPair, Step.Regular]
  have supplied : setting.Supplies .real splitPair := by
    refine ⟨by decide, ?_, by simp [splitPair], by simp [splitPair], .real 0, rfl, rfl, rfl⟩
    intro number member
    rcases List.mem_cons.mp member with rfl | member
    · exact ⟨rfl, fun _ => rfl⟩
    · rw [List.mem_singleton.mp member]
      exact ⟨rfl, fun _ => rfl⟩
  obtain ⟨reaches, mirrors⟩ := replay_mirrors_run splitPair regular .real
    [.real 3, .real 5] (fun _ => .real 0) (.real 0)
  obtain ⟨machine, ran⟩ := reaches supplied 4
  obtain ⟨stack, replayed, mirrored, _⟩ := mirrors 4 machine ran
  exact ⟨machine, stack, ran, replayed, mirrored⟩

/-- The formula of a program denotes the values that a run leaves. -/
theorem value_replay {program : Program} (regular : ∀ step ∈ program.steps, step.Regular)
    {domain : Domain} {inputs : List Number} {store : Store} {bound : Number}
    {machine : Machine domain.Scalar}
    (ran : (Evaluation.run domain.arithmetic ⟨inputs, store, some bound⟩ program).result =
      .ok machine) :
    ∃ formula, program.replay = .ok formula ∧
      formula.value domain.arithmetic ⟨inputs, store, some bound⟩ bound = .ok machine.values := by
  have carries := Machine.start_carries domain.arithmetic program.shape.depth
  obtain ⟨values, listed, _, carried, _⟩ :=
    Evaluation.execAll_succeeds_on_list _ _ program.shape_eq carries (Nat.le_refl _) ran
  obtain ⟨stack, replayed, mirrors⟩ :=
    Mirrors.run rfl regular program.shape_eq (Nat.le_refl _) .nil listed
  refine ⟨.ofParts (stack.reverse.map ReplayEntry.formula), ?_, ?_⟩
  · rw [Program.replay, replayed]
    rfl
  · rw [carried.values_eq]
    exact Replayed.value_ofParts mirrors.values

/-- A difference of two components of one group. -/
example :
    let pair : Replayed :=
      .negate (.tuple [.argument ⟨1, Nat.one_pos⟩, .argument ⟨2, Nat.two_pos⟩])
    Replay.run [.argument ⟨1, Nat.one_pos⟩, .argument ⟨2, Nat.two_pos⟩, .negate 2,
        .operator (.arithmetical .sub)] [] =
      .ok [⟨.operator (.arithmetical .sub) (.component pair 0) (.component pair 1), 1⟩] := rfl

end Formulary
