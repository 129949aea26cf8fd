import Formulary.Proofs.KernelRefinement
import Formulary.Proofs.RealData
import Formulary.Proofs.StepByStep

/-!
# Truth values

The reader of a source marks a result as boolean by the form of the expression: through nested
parentheses the mark is that of the comparison or boolean operator inside them, and every other
operator drops it. The mark can be relied upon. What it comes to in the program is that the latest
step is a comparison, a conjunction, a disjunction or a negation of a truth value, and that nothing
stands beside its result. Whatever the operands of that step are, undefined and infinite ones among
them, it puts the scalar of a truth value on top of the stack, in an evaluation as in a kernel.
-/

namespace Formulary

/-- The numbers that stand for truth values in a domain: exactly one and exactly zero, with an
imaginary part of zero where there is one. -/
def Number.IsTruthValue : Domain → Number → Prop
  | .real, number => number = .real 0 ∨ number = .real 1
  | .complex, number => number = .complex ⟨0, 0⟩ ∨ number = .complex ⟨1, 0⟩

/-- The scalar of a truth value is handed out as such. -/
theorem Domain.isTruthValue_output (domain : Domain) (scalars : List domain.Scalar) (flag : Bool) :
    (domain.arithmetic.output (domain.arithmetic.truth scalars flag)).IsTruthValue domain := by
  cases domain <;> cases flag
  · exact .inl rfl
  · exact .inr rfl
  · exact .inl rfl
  · exact .inr rfl

/-- Kernels hand out the scalar of a truth value as such. -/
theorem Domain.isTruthValue_flushedOutput (domain : Domain) (scalars : List domain.Scalar)
    (flag : Bool) :
    (domain.flushedArithmetic.output
      (domain.flushedArithmetic.truth scalars flag)).IsTruthValue domain := by
  cases domain <;> exact isTruthValue_output _ scalars flag

variable {α : Type}

/-- The scalars of truth values. -/
def Arithmetic.IsTruth (arithmetic : Arithmetic α) (value : α) : Prop :=
  ∃ scalars flag, value = arithmetic.truth scalars flag

/-- Where the latest step leaves a truth value, it is the only step or the latest of those behind
the first. -/
theorem endsInTruth_cons {step : Step} {rest : List Step}
    (ends : endsInTruth (step :: rest) = true) :
    rest = [] ∧ Formula.isTruthStep step = true ∨ endsInTruth rest = true := by
  cases rest with
  | nil => exact .inl ⟨rfl, ends⟩
  | cons next further => exact .inr ends

/-! ## In an evaluation -/

/-- A value that is put in a place with the top just above it is on top of the stack. -/
theorem Machine.getLast?_values_of_settle {machine after : Machine α} {place : Nat} {value : α}
    (settled : machine.settle place value = .ok after) : after.values.getLast? = some value := by
  unfold settle put at settled
  split at settled
  case isTrue inside =>
      cases settled
      simp [values, List.getLast?_take, inside]
  case isFalse outside => cases settled

namespace Evaluation

variable {arithmetic : Arithmetic α} {setting : Setting} {index : Nat}

/-- The result of a comparison or of a boolean operator with two operands is a truth value. -/
theorem isTruth_of_binary {tolerance : Option Number} {operator : Operator} {left right value : α}
    (isTruth : Formula.isTruthStep (.operator operator) = true) (isBinary : operator ≠ .not)
    (ran : (binary arithmetic tolerance index operator left right).result = .ok value) :
    arithmetic.IsTruth value := by
  cases operator with
  | arithmetical found => cases isTruth
  | not => exact absurd rfl isBinary
  | logical found =>
      obtain ⟨first, _, ran⟩ := Logged.result_bind_eq_ok_iff.mp ran
      obtain ⟨second, _, ran⟩ := Logged.result_bind_eq_ok_iff.mp ran
      obtain ⟨flag, _, finished⟩ := Logged.result_bind_eq_ok_iff.mp ran
      exact ⟨_, flag, (Except.ok.inj finished).symm⟩
  | comparison found =>
      obtain ⟨first, _, ran⟩ := Logged.result_bind_eq_ok_iff.mp ran
      obtain ⟨second, _, ran⟩ := Logged.result_bind_eq_ok_iff.mp ran
      -- The flag may be decided without the operands, when zero took the place of both.
      dsimp only at ran
      split at ran <;>
      · obtain ⟨flag, _, finished⟩ := Logged.result_bind_eq_ok_iff.mp ran
        exact ⟨_, flag, (Except.ok.inj finished).symm⟩

/-- The result of a negation is a truth value. -/
theorem isTruth_of_negation {tolerance : Option Number} {operand value : α}
    (ran : (negation arithmetic tolerance index operand).result = .ok value) :
    arithmetic.IsTruth value := by
  obtain ⟨real, _, ran⟩ := Logged.result_bind_eq_ok_iff.mp ran
  obtain ⟨flag, _, finished⟩ := Logged.result_bind_eq_ok_iff.mp ran
  exact ⟨_, flag, (Except.ok.inj finished).symm⟩

/-- A step that leaves a truth value leaves it on top of the stack. -/
theorem isTruth_of_exec {step : Step} {machine after : Machine α}
    (isTruth : Formula.isTruthStep step = true)
    (ran : (exec arithmetic setting index step machine).result = .ok after) :
    ∃ value, after.values.getLast? = some value ∧ arithmetic.IsTruth value := by
  cases step with
  | operator operator =>
      cases operator with
      | not =>
          obtain ⟨place, _, ran⟩ := Logged.result_bind_eq_ok_iff.mp ran
          obtain ⟨operand, _, ran⟩ := Logged.result_bind_eq_ok_iff.mp ran
          obtain ⟨value, computed, settled⟩ := Logged.result_bind_eq_ok_iff.mp ran
          exact ⟨value, Machine.getLast?_values_of_settle settled, isTruth_of_negation computed⟩
      | _ =>
          obtain ⟨place, _, ran⟩ := Logged.result_bind_eq_ok_iff.mp ran
          obtain ⟨left, _, ran⟩ := Logged.result_bind_eq_ok_iff.mp ran
          obtain ⟨right, _, ran⟩ := Logged.result_bind_eq_ok_iff.mp ran
          obtain ⟨value, computed, settled⟩ := Logged.result_bind_eq_ok_iff.mp ran
          exact ⟨value, Machine.getLast?_values_of_settle settled,
            isTruth_of_binary isTruth (by simp) computed⟩
  | _ => cases isTruth

/-- Steps of which the latest leaves a truth value end with one on top of the stack. -/
theorem isTruth_of_execAll {steps : List Step} {machine after : Machine α}
    (ends : endsInTruth steps = true)
    (ran : (execAll arithmetic setting index steps machine).result = .ok after) :
    ∃ value, after.values.getLast? = some value ∧ arithmetic.IsTruth value := by
  induction steps generalizing index machine with
  | nil => cases ends
  | cons step rest inductionHypothesis =>
      obtain ⟨next, stepped, further⟩ := Logged.result_bind_eq_ok_iff.mp ran
      rcases endsInTruth_cons ends with ⟨rfl, isTruth⟩ | later
      · cases further
        exact isTruth_of_exec isTruth stepped
      · exact inductionHypothesis later further

end Evaluation

/-! ## In a kernel -/

namespace Kernel

variable {arithmetic : Arithmetic α} {tolerance : Number} {point : List α} {cells : CellValues α}

/-- The result of a comparison or of a boolean operator with two operands is a truth value. -/
theorem isTruth_of_binary {operator : Operator} {left right value : α}
    (isTruth : Formula.isTruthStep (.operator operator) = true) (isBinary : operator ≠ .not)
    (ran : (binary arithmetic tolerance operator left right).result = .ok value) :
    arithmetic.IsTruth value := by
  cases operator with
  | arithmetical found => cases isTruth
  | not => exact absurd rfl isBinary
  | logical found =>
      obtain ⟨first, _, ran⟩ := Logged.result_bind_eq_ok_iff.mp ran
      obtain ⟨second, _, ran⟩ := Logged.result_bind_eq_ok_iff.mp ran
      obtain ⟨flag, _, finished⟩ := Logged.result_bind_eq_ok_iff.mp ran
      exact ⟨_, flag, (Except.ok.inj finished).symm⟩
  | comparison found =>
      obtain ⟨first, _, ran⟩ := Logged.result_bind_eq_ok_iff.mp ran
      obtain ⟨second, _, ran⟩ := Logged.result_bind_eq_ok_iff.mp ran
      obtain ⟨flag, _, finished⟩ := Logged.result_bind_eq_ok_iff.mp ran
      exact ⟨_, flag, (Except.ok.inj finished).symm⟩

/-- A step that leaves a truth value leaves it at the end of the stack. -/
theorem isTruth_of_exec {step : Step} {stack after : List α}
    (isTruth : Formula.isTruthStep step = true)
    (ran : (exec arithmetic tolerance point cells step stack).result = .ok after) :
    ∃ value, after.getLast? = some value ∧ arithmetic.IsTruth value := by
  cases step with
  | operator operator =>
      cases operator with
      | not =>
          simp only [exec] at ran
          split at ran
          case h_1 below operand _ =>
              obtain ⟨real, _, ran⟩ := Logged.result_bind_eq_ok_iff.mp ran
              obtain ⟨flag, _, finished⟩ := Logged.result_bind_eq_ok_iff.mp ran
              cases finished
              exact ⟨_, List.getLast?_concat .., _, flag, rfl⟩
          case h_2 => cases ran
      | _ =>
          simp only [exec] at ran
          split at ran
          case h_1 below left right _ =>
              obtain ⟨value, computed, finished⟩ := Logged.result_bind_eq_ok_iff.mp ran
              cases finished
              exact ⟨value, List.getLast?_concat .., isTruth_of_binary isTruth (by simp) computed⟩
          case h_2 => cases ran
  | _ => cases isTruth

/-- Steps of which the latest leaves a truth value end with one at the end of the stack. -/
theorem isTruth_of_execAll {steps : List Step} {stack after : List α}
    (ends : endsInTruth steps = true)
    (ran : (execAll arithmetic tolerance point cells steps stack).result = .ok after) :
    ∃ value, after.getLast? = some value ∧ arithmetic.IsTruth value := by
  induction steps generalizing stack with
  | nil => cases ends
  | cons step rest inductionHypothesis =>
      obtain ⟨next, stepped, further⟩ := Logged.result_bind_eq_ok_iff.mp ran
      rcases endsInTruth_cons ends with ⟨rfl, isTruth⟩ | later
      · cases further
        exact isTruth_of_exec isTruth stepped
      · exact inductionHypothesis later further

end Kernel

/-! ## Programs of sources -/

/-- The output of a kernel is a single truth value. -/
def Kernel.Output.IsTruthValue (domain : Domain) (output : Kernel.Output Number) : Prop :=
  ∃ number, output = .scalar number ∧ number.IsTruthValue domain

/-- Whatever succeeds gives a truth value: an evaluation in either domain, with any input point,
cells, tolerance and output buffer, and a kernel in either domain with any tolerance, step by step,
prepared for one point or prepared for a batch. -/
structure Program.GivesTruth (program : Program) : Prop where
  evaluation : ∀ domain setting buffer width number,
    (Evaluation.evaluate domain setting program buffer width).top = .ok number →
      number.IsTruthValue domain
  kernel : ∀ domain tolerance store inputs output,
    (Kernel.evaluate ⟨program, domain, tolerance⟩ store inputs).result = .ok output →
      output.IsTruthValue domain
  prepared : ∀ domain tolerance store inputs output,
    (Kernel.evaluatePrepared ⟨program, domain, tolerance⟩ store inputs).result = .ok output →
      output.IsTruthValue domain
  batch : ∀ domain tolerance store points outputs,
    (Kernel.evaluateBatch ⟨program, domain, tolerance⟩ store points).result = .ok outputs →
      ∀ output ∈ outputs, output.IsTruthValue domain

/-- The output of a kernel is a truth value when the latest step leaves one and nothing else is
left. -/
theorem Kernel.isTruthValue_of_evaluate {kernel : Kernel} {store : Store} {inputs : List Number}
    {output : Output Number} (ends : endsInTruth kernel.program.steps = true)
    (single : kernel.program.shape.height = 1)
    (evaluated : (kernel.evaluate store inputs).result = .ok output) :
    output.IsTruthValue kernel.domain := by
  obtain ⟨point, _, evaluated⟩ := Logged.result_bind_eq_ok_iff.mp evaluated
  obtain ⟨cells, _, evaluated⟩ := Logged.result_bind_eq_ok_iff.mp evaluated
  obtain ⟨left, ran, finished⟩ := Logged.result_bind_eq_ok_iff.mp evaluated
  obtain ⟨stack, ran, handedOut⟩ := Logged.result_bind_eq_ok_iff.mp ran
  obtain ⟨value, last, scalars, flag, rfl⟩ := isTruth_of_execAll ends ran
  rw [Logged.result_ofExcept, Output.ofStack, if_pos single, last] at handedOut
  cases handedOut
  cases finished
  exact ⟨_, rfl, kernel.domain.isTruthValue_flushedOutput scalars flag⟩

/-- A program gives truth values when its latest step leaves one and nothing else is left. -/
theorem Program.givesTruth_of_endsInTruth {program : Program}
    (ends : endsInTruth program.steps = true) (single : program.shape.height = 1) :
    program.GivesTruth where
  evaluation := by
    intro domain setting buffer width number evaluated
    cases ran : (Evaluation.run domain.arithmetic setting program).result with
    | error cause =>
        rw [Evaluation.evaluate_top_of_error domain ran] at evaluated
        cases evaluated
    | ok machine =>
        obtain ⟨value, last, scalars, flag, rfl⟩ := Evaluation.isTruth_of_execAll ends ran
        rw [Evaluation.evaluate_top domain ran rfl, Machine.topValue, last] at evaluated
        split at evaluated
        case isTrue short => cases evaluated
        case isFalse long =>
            cases evaluated
            exact domain.isTruthValue_output scalars flag
  kernel := by
    intro domain tolerance store inputs output evaluated
    exact Kernel.isTruthValue_of_evaluate ends single evaluated
  prepared := by
    intro domain tolerance store inputs output evaluated
    rw [Kernel.evaluatePrepared, Logged.result_silentFault] at evaluated
    exact Kernel.isTruthValue_of_evaluate ends single evaluated
  batch := by
    intro domain tolerance store points outputs evaluated output member
    have rows := (Kernel.evaluateBatch_rowByRow _ store points outputs).1 evaluated
    obtain ⟨row, inside, rfl⟩ := List.getElem_of_mem member
    exact Kernel.isTruthValue_of_evaluate ends single
      (rows.get (rows.length_eq.symm ▸ inside) inside)

/-- The mark of a boolean result is sound. A source with it compiles to a program of width one that
gives nothing but truth values, and no source of a greater width has the mark. -/
theorem givesTruth_of_isBoolean {scope : Scope} {source : Source} {compiled : Compiled}
    (compiles : compile scope source = .ok compiled) :
    (compiled.resultType.isBoolean = true →
      compiled.resultType.width = 1 ∧ compiled.program.shape.height = 1 ∧
        compiled.program.GivesTruth) ∧
      (1 < compiled.resultType.width → compiled.resultType.isBoolean = false) := by
  have marked := isBoolean_of_compile compiles
  obtain ⟨width, _, _⟩ := shape_of_compile compiles
  constructor
  · intro isBoolean
    rw [isBoolean, eq_comm, Bool.and_eq_true, decide_eq_true_iff] at marked
    obtain ⟨single, ends⟩ := marked
    have height : compiled.program.shape.height = 1 := by omega
    exact ⟨single, height, Program.givesTruth_of_endsInTruth ends height⟩
  · intro wide
    rw [marked, decide_eq_false (by omega), Bool.false_and]

/-- The quotient of zero and zero, in parentheses with a comparison, is undefined. The result is
marked as boolean all the same, and it is one, since the comparison is a negated strict order. -/
theorem givesTruth_of_isBoolean_undefined :
    ∃ compiled, compile singleScope (.text "((x / x >= 1))") = .ok compiled ∧
      compiled.resultType.isBoolean = true ∧ compiled.resultType.width = 1 ∧
      compiled.program.GivesTruth ∧
      (Evaluation.evaluate .real (singleSetting 0) compiled.program none none).top =
        .ok (.real 1) := by
  have checked : ((compile singleScope (.text "((x / x >= 1))")).toOption.any fun compiled =>
      compiled.resultType.isBoolean &&
        (Evaluation.evaluate .real (singleSetting 0) compiled.program none none).top.toOption.any
          (·.toFloat == 1)) = true := by decide +kernel
  cases compiles : compile singleScope (.text "((x / x >= 1))") with
  | error failure =>
      rw [compiles] at checked
      cases checked
  | ok compiled =>
      rw [compiles] at checked
      simp only [Except.toOption, Option.any_some, Bool.and_eq_true] at checked
      obtain ⟨isBoolean, one⟩ := checked
      obtain ⟨single, _, truth⟩ := (givesTruth_of_isBoolean compiles).1 isBoolean
      refine ⟨compiled, rfl, isBoolean, single, truth, ?_⟩
      cases evaluated : (Evaluation.evaluate .real (singleSetting 0) compiled.program none
          none).top with
      | error cause =>
          rw [evaluated] at one
          cases one
      | ok number =>
          rw [evaluated] at one
          rcases truth.evaluation _ _ _ _ _ evaluated with rfl | rfl
          · cases one
          · rfl

end Formulary
