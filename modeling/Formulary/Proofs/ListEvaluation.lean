import Formulary.Proofs.WorkArea
import Mathlib.Data.List.Basic

/-!
# Evaluation on lists

`answer` gives the results of a step for its operands alone, as lists. `execList` applies it at the
end of a list that serves as the stack; it knows no work area and no limit. `exec_related` shows
that evaluation in place does the same within the size of the work area, provided that the stack
holds the operands; `execAll_related` carries this over to the steps of a program, whose shape
guarantees it.

A vector operator may leave more values than the shape foretells, never fewer. That is why the
height of the shape bounds the stack from below only.
-/

namespace Formulary

variable {α : Type}

/-! ## Operands and results of a step -/

namespace Step

/-- The number of values that a step takes off the stack. -/
def operands : Step → Nat
  | constant _ | argument _ | external _ => 0
  | call function => function.arity
  | negate width => width.toNat
  | operator found => found.operands
  | vector _ left right => left.val + right.val

/-- The number of values that a step puts on the stack. A vector operator component by component
leaves as many as its wider operand has, whichever its code is. -/
def results : Step → Nat
  | negate width => width.toNat
  | vector .dot _ _ => 1
  | vector _ left right => max left.val right.val
  | _ => 1

/-- The width that is foretold for the results of a step is their true width: a scaled vector, or
one that is divided, is at least as wide as the scalar. -/
def Balanced : Step → Prop
  | vector .scaleRight left right => right.val ≤ left.val
  | vector .divide left right => right.val ≤ left.val
  | vector .scaleLeft left right => left.val ≤ right.val
  | _ => True

instance (step : Step) : Decidable step.Balanced := by
  unfold Balanced
  split <;> infer_instance

/-- The widths that the code of an expression has: a vector is scaled or divided by a scalar, and a
negation has a width. -/
def WellWidthed : Step → Prop
  | vector .scaleRight _ right => right.val = 1
  | vector .divide _ right => right.val = 1
  | vector .scaleLeft left _ => left.val = 1
  | negate width => 1 ≤ width
  | _ => True

instance (step : Step) : Decidable step.WellWidthed := by
  unfold WellWidthed
  split <;> infer_instance

/-- A vector is at least as wide as a scalar. -/
theorem WellWidthed.balanced {step : Step} (widthed : step.WellWidthed) : step.Balanced := by
  cases step with
  | vector operator left right =>
      have leftPositive := left.property
      have rightPositive := right.property
      cases operator <;> simp only [WellWidthed, Balanced] at widthed ⊢ <;> omega
  | _ => trivial

/-- The operands of a step are there exactly when it does not take too many values. -/
theorem operands_le_iff (step : Step) (height : Nat) :
    step.operands ≤ height ↔ step.pops ≤ height := by
  cases step <;> simp only [operands, pops] <;> omega

/-- A step whose operands are there leaves at least the height that is foretold. -/
theorem heightAfter_le (step : Step) {height : Nat} (enough : step.operands ≤ height) :
    Shape.heightAfter height step + step.operands ≤ height + step.results := by
  cases step with
  | vector operator left right =>
      cases operator <;>
        (simp only [Shape.heightAfter, operands, results, pops, pushes,
          VectorOperator.resultWidth] at enough ⊢
         omega)
  | _ =>
      simp only [Shape.heightAfter, operands, results, pops, pushes] at enough ⊢
      omega

/-- A step leaves exactly the height that is foretold when it is balanced, and only then. -/
theorem heightAfter_eq_iff (step : Step) {height : Nat} (enough : step.operands ≤ height) :
    Shape.heightAfter height step + step.operands = height + step.results ↔ step.Balanced := by
  cases step with
  | vector operator left right =>
      have leftPositive := left.property
      have rightPositive := right.property
      cases operator <;>
        (simp only [Shape.heightAfter, operands, results, pops, pushes, Balanced, iff_true,
          VectorOperator.resultWidth] at enough ⊢
         omega)
  | _ =>
      simp only [Shape.heightAfter, operands, results, pops, pushes, Balanced, iff_true]
        at enough ⊢
      omega

end Step

/-! ## Steps on lists -/

namespace Kernel

/-- The topmost values are split off the values below them. -/
theorem splitTop_append {below group : List α} {count : Nat} (exact : group.length = count) :
    splitTop (below ++ group) count = (below, group) := by
  subst exact
  simp [splitTop]

/-- A stack that is tall enough consists of its topmost values and those below them. -/
theorem exists_append_of_le {stack : List α} {count : Nat} (enough : count ≤ stack.length) :
    ∃ below group, stack = below ++ group ∧ group.length = count :=
  ⟨stack.take (stack.length - count), stack.drop (stack.length - count), by simp, by simp; omega⟩

/-- A vector operator leaves one value when it is the dot product, and otherwise as many as its
wider operand has. -/
theorem length_vector (arithmetic : Arithmetic α) (operator : VectorOperator)
    {left right : List α} {leftWidth rightWidth : Positive}
    (leftExact : left.length = leftWidth.val) (rightExact : right.length = rightWidth.val) :
    (vector arithmetic operator left right).length =
      (Step.vector operator leftWidth rightWidth).results := by
  have leftPositive := leftWidth.property
  have rightPositive := rightWidth.property
  by_cases dot : operator = .dot
  · simp [vector, dot, Step.results]
  · rw [vector, if_neg dot, length_componentwise (by omega) (by omega), leftExact, rightExact]
    cases operator <;> first | rfl | exact absurd rfl dot

end Kernel

namespace Evaluation

open Kernel (splitTop splitTop_append exists_append_of_le)

section Answers

variable (arithmetic : Arithmetic α) (setting : Setting) (index : Nat)

/-- The results of a step for its operands. -/
def answer (step : Step) (operands : List α) : Logged Degradation (List α) :=
  match step, operands with
  | .constant constant, _ => do return [← load arithmetic index .constant constant.value]
  | .argument slot, _ => do return [← Logged.ofExcept (input arithmetic setting slot.val)]
  | .external cell, _ => do return [← load arithmetic index .variable (setting.store cell)]
  | .call function, arguments => return [arithmetic.call function arguments]
  | .negate _, group => return group.map arithmetic.neg
  | .vector operator left _, group =>
    return Kernel.vector arithmetic operator (group.take left.val) (group.drop left.val)
  | .operator .not, [value] => do return [← negation arithmetic setting.tolerance index value]
  | .operator operator, [left, right] => do
    return [← binary arithmetic setting.tolerance index operator left right]
  | _, _ => Logged.fault .emptyStack

/-- One step on a stack that is a list: the operands at its end give way to the results. -/
def execList (step : Step) (stack : List α) : Logged Degradation (List α) := do
  let (below, operands) := splitTop stack step.operands
  return below ++ (← answer arithmetic setting index step operands)

/-- Steps in order, of which the first has the given index, on a stack that is a list. -/
def execAllList (index : Nat) : List Step → List α → Logged Degradation (List α)
  | [], stack => return stack
  | step :: rest, stack => do
    let next ← execList arithmetic setting index step stack
    execAllList (index + 1) rest next

end Answers

variable {arithmetic : Arithmetic α} {setting : Setting} {index : Nat}

/-- A step works on its operands alone; what is below them stays. -/
theorem execList_append {step : Step} {below operands : List α}
    (exact : operands.length = step.operands) :
    execList arithmetic setting index step (below ++ operands) =
      (answer arithmetic setting index step operands).bind fun results =>
        Logged.value (below ++ results) := by
  simp [execList, splitTop_append exact]

/-- A computation of one value leaves one value. -/
theorem length_single {computation : Logged Degradation α} {results : List α}
    (computed : (computation.bind fun value => Logged.value [value]).result = .ok results) :
    results.length = 1 := by
  obtain ⟨value, _, finished⟩ := Logged.result_bind_eq_ok_iff.mp computed
  cases finished
  rfl

/-- The results of a step are as many as it leaves. -/
theorem length_answer {step : Step} {operands results : List α}
    (exact : operands.length = step.operands)
    (answered : (answer arithmetic setting index step operands).result = .ok results) :
    results.length = step.results := by
  cases step with
  | constant constant => exact length_single answered
  | argument slot => exact length_single answered
  | external cell => exact length_single answered
  | call function =>
      cases answered
      rfl
  | negate width =>
      cases answered
      rw [List.length_map]
      exact exact
  | vector operator left right =>
      cases answered
      simp only [Step.operands] at exact
      exact Kernel.length_vector arithmetic operator (by simp; omega) (by simp; omega)
  | operator operator =>
      cases operator with
      | not =>
          obtain ⟨value, rfl⟩ := List.length_eq_one_iff.mp exact
          exact length_single answered
      | _ =>
          obtain ⟨left, right, rfl⟩ := List.length_eq_two.mp exact
          exact length_single answered

/-- A step on a list takes its operands and leaves its results. -/
theorem length_execList {step : Step} {stack next : List α}
    (enough : step.operands ≤ stack.length)
    (ran : (execList arithmetic setting index step stack).result = .ok next) :
    next.length + step.operands = stack.length + step.results := by
  obtain ⟨below, operands, rfl, exact⟩ := exists_append_of_le enough
  rw [execList_append exact] at ran
  obtain ⟨results, answered, finished⟩ := Logged.result_bind_eq_ok_iff.mp ran
  cases finished
  have width := length_answer exact answered
  simp only [List.length_append]
  omega

/-- Steps run on a list one part after the other. -/
theorem execAllList_append (first second : List Step) (index : Nat) (stack : List α) :
    execAllList arithmetic setting index (first ++ second) stack =
      (execAllList arithmetic setting index first stack).bind
        (execAllList arithmetic setting (index + first.length) second) := by
  induction first generalizing index stack with
  | nil => simp [execAllList]
  | cons step rest inductionHypothesis =>
      simp only [List.cons_append, execAllList, Logged.bind_eq, Logged.bind_assoc,
        inductionHypothesis, List.length_cons]
      rw [show index + (rest.length + 1) = index + 1 + rest.length by omega]

/-! ## Steps in place -/

/-- A stack that fits into a work area of some size. -/
def within (size : Nat) (stack : List α) : Except Fault (List α) :=
  if stack.length ≤ size then .ok stack else .error .stackOverrun

/-- A work area of the given size carries a stack. -/
def Carried (size : Nat) (machine : Machine α) (stack : List α) : Prop :=
  machine.memory.size = size ∧ machine.Carries stack

/-- An operation that yields a stack does within the work area what leaves that stack as a list. -/
theorem related_of_yields {outcome : Except Fault (Machine α)} {size : Nat} {stack : List α}
    (yields : Machine.Yields outcome size stack) :
    Logged.Related (Carried size) (Logged.ofExcept outcome : Logged Degradation (Machine α))
      (Logged.ofExcept (within size stack)) := by
  obtain ⟨machine, rfl, sized, carries⟩ := yields
  have fits := carries.length_le
  rw [sized] at fits
  rw [within, if_pos fits]
  exact .value [] ⟨sized, carries⟩

/-- A value is pushed exactly as far as the work area reaches. -/
theorem related_push {machine : Machine α} {stack : List α} (carries : machine.Carries stack)
    (value : α) :
    Logged.Related (Carried machine.memory.size)
      (Logged.ofExcept (machine.push value) : Logged Degradation (Machine α))
      (Logged.ofExcept (within machine.memory.size (stack ++ [value]))) := by
  by_cases room : stack.length < machine.memory.size
  · exact related_of_yields (carries.push_yields value room)
  · rw [carries.push_full value (by omega), within, if_neg (by simp; omega)]
    exact .fault [] _

variable (arithmetic setting index)

/-- A step in place does to the stack what it does to the list, within the work area. -/
theorem exec_related (step : Step) {machine : Machine α} {stack : List α}
    (carries : machine.Carries stack) (enough : step.operands ≤ stack.length) :
    Logged.Related (Carried machine.memory.size)
      (exec arithmetic setting index step machine)
      ((execList arithmetic setting index step stack).bind fun next =>
        Logged.ofExcept (within machine.memory.size next)) := by
  obtain ⟨below, operands, rfl, exact⟩ := exists_append_of_le enough
  rw [execList_append exact, Logged.bind_assoc]
  have pushes : ∀ computation : Logged Degradation α, operands = [] →
      Logged.Related (Carried machine.memory.size)
        (computation.bind fun value => Logged.ofExcept (machine.push value))
        ((computation.bind fun value => Logged.value [value]).bind fun results =>
          (Logged.value (below ++ results)).bind fun next =>
            Logged.ofExcept (within machine.memory.size next)) := by
    rintro computation rfl
    rw [List.append_nil] at carries
    simp only [Logged.bind_assoc, Logged.value_bind]
    refine (Logged.Related.refl computation).bind ?_
    rintro value _ rfl
    exact related_push carries value
  cases step with
  | constant constant => exact pushes _ (List.length_eq_zero_iff.mp exact)
  | argument slot => exact pushes _ (List.length_eq_zero_iff.mp exact)
  | external cell => exact pushes _ (List.length_eq_zero_iff.mp exact)
  | call function =>
      exact related_of_yields (carries.callInPlace_yields arithmetic function exact)
  | negate width =>
      exact related_of_yields (carries.negateInPlace_yields arithmetic exact.symm)
  | vector operator left right =>
      simp only [Step.operands] at exact
      have leftExact : (operands.take left.val).length = left.val := by simp; omega
      have rightExact : (operands.drop left.val).length = right.val := by simp; omega
      rw [← List.take_append_drop left.val operands] at carries
      have yields := carries.vectorInPlace_yields arithmetic operator
        (by rw [leftExact]; exact left.property) (by rw [rightExact]; exact right.property)
      rw [leftExact, rightExact] at yields
      exact related_of_yields yields
  | operator operator =>
      have settles : ∀ computation : Logged Degradation α, 0 < operands.length →
          Logged.Related (Carried machine.memory.size)
            (computation.bind fun value => Logged.ofExcept (machine.settle below.length value))
            ((computation.bind fun value => Logged.value [value]).bind fun results =>
              (Logged.value (below ++ results)).bind fun next =>
                Logged.ofExcept (within machine.memory.size next)) := by
        intro computation some
        have room := carries.length_le
        rw [List.length_append] at room
        simp only [Logged.bind_assoc, Logged.value_bind]
        refine (Logged.Related.refl computation).bind ?_
        rintro value _ rfl
        exact related_of_yields (carries.settle_yields value (by omega))
      have base := carries.base_eq
      rw [exact] at base
      cases operator with
      | not =>
          obtain ⟨value, rfl⟩ := List.length_eq_one_iff.mp exact
          have read := carries.get_eq (by simp : 0 < [value].length)
          rw [Nat.add_zero] at read
          simp only [Step.operands, Operator.operands] at base
          simp only [exec, base, read, Logged.bind_eq, Logged.ofExcept_ok, Logged.value_bind]
          exact settles _ (by simp)
      | _ =>
          obtain ⟨left, right, rfl⟩ := List.length_eq_two.mp exact
          have leftRead := carries.get_eq (by simp : 0 < [left, right].length)
          have rightRead := carries.get_eq (by simp : 1 < [left, right].length)
          rw [Nat.add_zero] at leftRead
          simp only [Step.operands, Operator.operands] at base
          simp only [exec, base, leftRead, rightRead, Logged.bind_eq, Logged.ofExcept_ok,
            Logged.value_bind]
          exact settles _ (by simp)

/-- A step in place that succeeds does what it does on the list, and logs the same. -/
theorem exec_succeeds_on_list (step : Step) {machine after : Machine α} {stack : List α}
    (carries : machine.Carries stack) (enough : step.operands ≤ stack.length)
    (ran : (exec arithmetic setting index step machine).result = .ok after) :
    ∃ values, (execList arithmetic setting index step stack).result = .ok values ∧
      (execList arithmetic setting index step stack).log =
        (exec arithmetic setting index step machine).log ∧
      Carried machine.memory.size after values := by
  have related := exec_related arithmetic setting index step carries enough
  obtain ⟨fitting, checked, carried⟩ := related.result_of_left ran
  obtain ⟨values, ranList, fits⟩ := Logged.result_bind_eq_ok_iff.mp checked
  have passed : within machine.memory.size values = .ok fitting := fits
  unfold within at passed
  split at passed
  case isFalse tall => cases passed
  case isTrue short =>
      cases passed
      have logs := related.log_eq
      rw [Logged.log_bind_of_ok ranList, within, if_pos short] at logs
      exact ⟨fitting, ranList, by simpa [Logged.value] using logs.symm, carried⟩

end Evaluation

end Formulary
