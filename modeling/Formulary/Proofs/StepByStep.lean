import Formulary.Proofs.Dimensions
import Formulary.Proofs.Origins

/-!
# Building step by step

A host builds a program by appending its steps one after the other. `Formula.appendStep` appends a
step in the way that is meant for it, with the texts, slots and widths that the step holds. It never
fails where the step fits behind the program, so the code of a source can be built anew.

The result type is then found in another way than the reader of a source finds it. The reader goes
by the form of the expression, and a list has no truth value. A formula that is appended to goes by
the latest step alone, so it takes a list for a truth value when the last component is one. This is
the only way in which the two differ on real data.
-/

namespace Formulary

/-- The names of functions tell them apart. -/
theorem Builtin.name_injective : Function.Injective Builtin.name := by
  have names : ∀ first ∈ all, ∀ second ∈ all, first.name = second.name → first = second := by
    decide
  exact fun first second => names first first.mem_all second second.mem_all

/-- A function is found by its name. -/
theorem Builtin.find?_name {functions : List Builtin} {function : Builtin}
    (known : function ∈ functions) : find? functions function.name = some function := by
  cases found : find? functions function.name with
  | none => simpa using List.find?_eq_none.mp found function known
  | some other =>
      have same : other.name = function.name := by simpa using List.find?_some found
      rw [name_injective same]

/-- A program is given by its steps. -/
theorem Program.eq_of_steps {left right : Program} (same : left.steps = right.steps) :
    left = right := by
  obtain ⟨steps, shape, extended⟩ := left
  obtain ⟨_, other, extendedOther⟩ := right
  subst same
  obtain rfl := Except.ok.inj (extended.symm.trans extendedOther)
  rfl

namespace Step

/-- Codes are looked up by their texts. -/
theorem codeOfText_text (code : Opcode) : codeOfText code.text = .ok code := by
  cases code <;> rfl

/-- A scalar operator is made from its code, whatever widths are given. -/
theorem ofCode_operator (found : Operator) (left right : Int) :
    ofCode found.opcode left right = .ok (operator found) := by
  cases found with
  | arithmetical found => cases found <;> rfl
  | comparison found => cases found <;> rfl
  | logical found => cases found <;> rfl
  | not => rfl

/-- A vector operator is made from its code and its widths. -/
theorem ofCode_vector (found : VectorOperator) (left right : Positive) :
    ofCode found.opcode left.val right.val = .ok (vector found left right) := by
  simp only [ofCode, Opcode.vectorOperator?_opcode, ofVectorCode, positive?_val]

end Step

namespace Formula

/-- Appends a step in the way that is meant for it. A function is given by its name, or as it is. -/
def appendStep (byName : Bool) (formula : Formula) : Step → Except StepError Formula
  | .constant value => formula.appendConstant value
  | .argument slot => formula.appendArgument slot.val
  | .external named => formula.appendVariable named
  | .call function =>
    if byName then formula.appendFunction function.name else formula.appendCall function
  | .negate width => formula.appendOperator Opcode.neg.text width 1
  | .operator found => formula.appendOperator found.opcode.text 1 1
  | .vector found left right => formula.appendOperator found.opcode.text left.val right.val

/-- Appends steps one after the other. -/
def appendAll (byName : Bool) (formula : Formula) (steps : List Step) : Except StepError Formula :=
  steps.foldlM (appendStep byName) formula

/-- Each way of appending appends the step. -/
theorem appendStep_eq (byName : Bool) {formula : Formula} {step : Step}
    (known : ∀ function, step = .call function → function ∈ formula.scope.functions) :
    formula.appendStep byName step = formula.append step := by
  cases step with
  | constant value => rfl
  | argument slot => simp only [appendStep, appendArgument, Step.ofSlot, Step.positive?_val]; rfl
  | external named => rfl
  | call function =>
      cases byName with
      | false => rfl
      | true =>
          simp only [appendStep, if_true, appendFunction, Builtin.find?_name (known function rfl)]
          rfl
  | negate width => rfl
  | operator found =>
      simp only [appendStep, appendOperator, Step.codeOfText_text, Step.ofCode_operator,
        Outcome.ok_bind]
  | vector found left right =>
      simp only [appendStep, appendOperator, Step.codeOfText_text, Step.ofCode_vector,
        Outcome.ok_bind]

/-- A step that fits behind the program is appended. -/
theorem append_of_fits {formula : Formula} {step : Step} {shape : Shape}
    (fits : Shape.ofSteps (formula.program.steps ++ [step]) = .ok shape) :
    ∃ after, formula.append step = .ok after ∧
      after.program.steps = formula.program.steps ++ [step] ∧ after.scope = formula.scope ∧
      after.resultType =
        { width := max 1 shape.height
          isBoolean := isTruthStep step
          isComplex := formula.resultType.isComplex || isComplexStep step } := by
  rw [append, Program.append, Program.ofSteps_eq_ok fits]
  exact ⟨_, rfl, rfl, rfl, rfl⟩

/-- Steps that fit behind the program are appended one after the other. The result type then goes by
the height of the program, the latest step, and the constants. -/
theorem appendAll_of_fits (byName : Bool) {formula : Formula} {steps : List Step} {shape : Shape}
    (known : ∀ function, .call function ∈ steps → function ∈ formula.scope.functions)
    (fits : Shape.ofSteps (formula.program.steps ++ steps) = .ok shape) :
    ∃ after, formula.appendAll byName steps = .ok after ∧
      after.program.steps = formula.program.steps ++ steps ∧ after.scope = formula.scope ∧
      after.resultType.isComplex = (formula.resultType.isComplex || steps.any isComplexStep) ∧
      ∀ last, steps.getLast? = some last →
        after.resultType.width = max 1 (shape.height : Int) ∧
          after.resultType.isBoolean = isTruthStep last := by
  induction steps using List.reverseRecOn generalizing shape with
  | nil => exact ⟨formula, rfl, (List.append_nil _).symm, rfl, (Bool.or_false _).symm, nofun⟩
  | append_singleton front step inductionHypothesis =>
      rw [← List.append_assoc] at fits
      obtain ⟨middle, fitsFront, _⟩ := Shape.extendAll_append_iff.mp fits
      obtain ⟨before, done, steps, scope, isComplex, _⟩ := inductionHypothesis
        (fun function member => known function (List.mem_append_left _ member)) fitsFront
      rw [← steps] at fits
      obtain ⟨after, appended, longer, same, typed⟩ := append_of_fits fits
      have knows : ∀ function, step = .call function → function ∈ before.scope.functions := by
        rintro function rfl
        rw [scope]
        exact known function (List.mem_append_right _ List.mem_cons_self)
      rw [← appendStep_eq byName knows] at appended
      refine ⟨after, ?_, ?_, same.trans scope, ?_, ?_⟩
      · have rest : List.foldlM (appendStep byName) before [step] = .ok after := by
          rw [List.foldlM_cons, appended]
          rfl
        rw [appendAll, List.foldlM_append, ← appendAll, done]
        exact rest
      · rw [longer, steps, List.append_assoc]
      · simp [typed, isComplex, Bool.or_assoc]
      · intro last ends
        rw [List.getLast?_concat] at ends
        obtain rfl := Option.some.inj ends
        rw [typed]
        exact ⟨rfl, rfl⟩

end Formula

/-- Whether the latest of some steps leaves a truth value. -/
def endsInTruth (steps : List Step) : Bool := steps.getLast?.any Formula.isTruthStep

namespace Expression

theorem isTruthStep_sumStep (sign : SumSign) (left right : Expression) :
    Formula.isTruthStep (sumStep sign left right) = false := by
  unfold sumStep
  split <;> cases sign <;> rfl

theorem isTruthStep_productStep (left right : Expression) :
    Formula.isTruthStep (productStep left right) = false := by
  unfold productStep
  split <;> split <;> rfl

theorem isTruthStep_quotientStep (left right : Expression) :
    Formula.isTruthStep (quotientStep left right) = false := by
  unfold quotientStep
  split <;> rfl

/-- A value is a truth value when the latest step leaves one and it is no list. -/
theorem isBoolean_eq (expression : Expression) :
    expression.isBoolean = (decide (expression.width = 1) && endsInTruth expression.code) := by
  cases expression with
  | argument declared =>
      have slots : endsInTruth (declared.slots.map .argument) = false := by
        rw [endsInTruth, List.getLast?_map, Option.any_map]
        cases declared.slots.getLast? <;> rfl
      simp [isBoolean, code, slots]
  | concat left right =>
      have leftSome := left.width_pos
      have rightSome := right.width_pos
      have several : ¬left.width + right.width = 1 := by omega
      simp [isBoolean, width, several]
  | sum sign left right => simp [isBoolean, code, endsInTruth, isTruthStep_sumStep]
  | product left right => simp [isBoolean, code, endsInTruth, isTruthStep_productStep]
  | quotient left right => simp [isBoolean, code, endsInTruth, isTruthStep_quotientStep]
  | _ => simp [isBoolean, width, code, endsInTruth, Formula.isTruthStep]

/-- An expression without complex constants and arguments is not marked as complex. -/
theorem isComplex_eq_false {known : Lexeme → Prop} {expression : Expression}
    (stems : expression.StemsFrom known)
    (arguments : ∀ declared, known (.argument declared) → declared.isComplex = false)
    (constants : ∀ value, .constant value ∈ expression.code → value.value.isComplex = false) :
    expression.isComplex = false := by
  have inside : ∀ {first second : List Step},
      (∀ value, .constant value ∈ first ++ second → value.value.isComplex = false) →
        ∀ value, .constant value ∈ first → value.value.isComplex = false :=
    fun held value member => held value (List.mem_append_left _ member)
  have behind : ∀ {first second : List Step},
      (∀ value, .constant value ∈ first ++ second → value.value.isComplex = false) →
        ∀ value, .constant value ∈ second → value.value.isComplex = false :=
    fun held value member => held value (List.mem_append_right _ member)
  induction expression with
  | constant found => exact constants found List.mem_cons_self
  | argument declared => exact arguments declared stems
  | call function operand inductionHypothesis =>
      exact inductionHypothesis stems.2 (inside constants)
  | negate operand inductionHypothesis => exact inductionHypothesis stems (inside constants)
  | concat left right leftHypothesis rightHypothesis =>
      exact Bool.or_eq_false_iff.mpr ⟨leftHypothesis stems.1 (inside constants),
        rightHypothesis stems.2 (behind constants)⟩
  | sum sign left right leftHypothesis rightHypothesis =>
      exact Bool.or_eq_false_iff.mpr ⟨leftHypothesis stems.1 (inside (inside constants)),
        rightHypothesis stems.2 (behind (inside constants))⟩
  | product left right leftHypothesis rightHypothesis =>
      exact Bool.or_eq_false_iff.mpr ⟨leftHypothesis stems.1 (inside (inside constants)),
        rightHypothesis stems.2 (behind (inside constants))⟩
  | quotient left right leftHypothesis rightHypothesis =>
      exact Bool.or_eq_false_iff.mpr ⟨leftHypothesis stems.1 (inside (inside constants)),
        rightHypothesis stems.2 (behind (inside constants))⟩
  | _ => rfl

end Expression

/-! ## What a source compiles to -/

section Compiled

variable {scope : Scope} {source : Source} {compiled : Compiled}
  (compiles : compile scope source = .ok compiled)

include compiles

/-- The functions that a compiled program calls are those of its scope. -/
theorem mem_functions_of_compile (function : Builtin)
    (member : .call function ∈ compiled.program.steps) : function ∈ scope.functions := by
  obtain ⟨_, expression, _, read, _, steps, _⟩ := exists_formula compiles
  rw [steps] at member
  exact Scope.mem_functions_of_offers
    (Expression.stemsFrom_code (stemsFrom_of_read read) _ member)

/-- A compiled program has a latest step. -/
theorem exists_last_of_compile : ∃ last, compiled.program.steps.getLast? = some last := by
  obtain ⟨_, positive, _⟩ := shape_of_compile compiles
  refine Option.ne_none_iff_exists'.mp fun ends => ?_
  have shape := compiled.program.shape_eq
  rw [List.getLast?_eq_none_iff.mp ends] at shape
  rw [← Except.ok.inj shape] at positive
  exact absurd positive (Nat.not_succ_le_zero 0)

/-- On real data the result type is not marked as complex. -/
theorem isComplex_of_compile
    (arguments : ∀ entry ∈ scope.symbols.arguments, entry.2.isComplex = false)
    (constants : ∀ value, .constant value ∈ compiled.program.steps →
      value.value.isComplex = false) : compiled.resultType.isComplex = false := by
  obtain ⟨_, expression, _, read, _, steps, resultType⟩ := exists_formula compiles
  have declared : ∀ declared, scope.Offers (.argument declared) → declared.isComplex = false := by
    intro declared offers
    obtain ⟨name, entered⟩ := Scope.mem_arguments_of_offers offers
    exact arguments _ entered
  rw [resultType]
  exact Expression.isComplex_eq_false (stemsFrom_of_read read) declared (steps ▸ constants)

theorem isBoolean_of_compile :
    compiled.resultType.isBoolean =
      (decide (compiled.resultType.width = 1) && endsInTruth compiled.program.steps) := by
  obtain ⟨_, expression, _, _, _, steps, resultType⟩ := exists_formula compiles
  rw [resultType, steps]
  simpa [Expression.resultType] using expression.isBoolean_eq

end Compiled

theorem ResultType.eq_iff_isBoolean {left right : ResultType} (width : left.width = right.width)
    (isComplex : left.isComplex = right.isComplex) :
    left = right ↔ left.isBoolean = right.isBoolean := by
  cases left
  cases right
  simp_all

/-! ## Rebuilding -/

/-- A formula on which nothing was done but to enter names. -/
def Formula.fresh (scope : Scope) : Formula := { scope }

/-- A formula that was built from the steps of a compiled one. It has the same program, the same
width and the same mark of complex values. The result types are the same unless the result is a list
of which the last component is a truth value. -/
structure Compiled.Rebuilt (compiled : Compiled) (rebuilt : Formula) : Prop where
  program_eq : rebuilt.program = compiled.program
  dimension_eq : rebuilt.dimension = compiled.resultType.width
  isComplex_eq : rebuilt.resultType.isComplex = compiled.resultType.isComplex
  resultType_eq_iff : rebuilt.resultType = compiled.resultType ↔
    ¬(1 < compiled.resultType.width ∧ endsInTruth compiled.program.steps = true)

/-- The steps of a source that compiles over real data are appended to a new formula without a
failure, and rebuild what was compiled. -/
theorem appendAll_compiled {scope : Scope} {source : Source} {compiled : Compiled}
    (compiles : compile scope source = .ok compiled)
    (arguments : ∀ entry ∈ scope.symbols.arguments, entry.2.isComplex = false)
    (constants : ∀ value, .constant value ∈ compiled.program.steps →
      value.value.isComplex = false)
    (tables : SymbolTables) (byName : Bool) :
    ∃ rebuilt, (Formula.fresh ⟨tables, scope.functions⟩).appendAll byName compiled.program.steps =
      .ok rebuilt ∧ compiled.Rebuilt rebuilt := by
  have fits : Shape.ofSteps ((Formula.fresh ⟨tables, scope.functions⟩).program.steps ++
      compiled.program.steps) = .ok compiled.program.shape := compiled.program.shape_eq
  have known := mem_functions_of_compile compiles
  obtain ⟨rebuilt, done, same, _, isComplex, ends⟩ :=
    Formula.appendAll_of_fits byName known fits
  obtain ⟨width, positive, _⟩ := shape_of_compile compiles
  obtain ⟨last, latest⟩ := exists_last_of_compile compiles
  obtain ⟨rebuiltWidth, rebuiltBoolean⟩ := ends last latest
  have dimension : rebuilt.resultType.width = compiled.resultType.width := by
    rw [rebuiltWidth, width]
    omega
  have boolean : rebuilt.resultType.isBoolean = endsInTruth compiled.program.steps := by
    rw [rebuiltBoolean, endsInTruth, latest]
    rfl
  have real : rebuilt.resultType.isComplex = compiled.resultType.isComplex := by
    rw [isComplex_of_compile compiles arguments constants, isComplex, Formula.fresh, Bool.false_or,
      List.any_eq_false]
    intro step member
    cases step with
    | constant value =>
        rw [Formula.isComplexStep, constants value member]
        exact Bool.false_ne_true
    | _ => exact Bool.false_ne_true
  refine ⟨rebuilt, done, Program.eq_of_steps same, dimension, real, ?_⟩
  rw [ResultType.eq_iff_isBoolean dimension real, boolean, isBoolean_of_compile compiles]
  -- The reader of a source asks for the width as well.
  cases endsInTruth compiled.program.steps with
  | false => simp
  | true =>
      simp only [Bool.and_true, true_eq_decide_iff, and_true]
      omega

/-- A pair of a number and a comparison has no truth value when it is parsed, but it has one when it
is built step by step. -/
theorem resultType_ne_listedComparison :
    ∃ compiled rebuilt, compile {} (.text "(1, 2 > 1)") = .ok compiled ∧
      (Formula.fresh {}).appendAll true compiled.program.steps = .ok rebuilt ∧
      rebuilt.program = compiled.program ∧ compiled.resultType.isBoolean = false ∧
      rebuilt.resultType ≠ compiled.resultType := by
  have checked : ((compile {} (.text "(1, 2 > 1)")).toOption.any fun compiled =>
      compiled.resultType.width == 2 && !compiled.resultType.isBoolean &&
        endsInTruth compiled.program.steps &&
        compiled.program.steps.all (!Formula.isComplexStep ·)) = true := by decide +kernel
  cases compiles : compile {} (.text "(1, 2 > 1)") with
  | error failure =>
      rw [compiles] at checked
      cases checked
  | ok compiled =>
      rw [compiles] at checked
      simp only [Except.toOption, Option.any_some, Bool.and_eq_true, beq_iff_eq, List.all_eq_true,
        Bool.not_eq_true'] at checked
      obtain ⟨⟨⟨width, unmarked⟩, ends⟩, real⟩ := checked
      obtain ⟨rebuilt, done, same⟩ := appendAll_compiled compiles
        (fun _ member => absurd member List.not_mem_nil) (fun value member => real _ member) {} true
      refine ⟨compiled, rebuilt, rfl, done, same.program_eq, unmarked, ?_⟩
      rw [Ne, same.resultType_eq_iff, width]
      exact fun alike => alike ⟨by decide, ends⟩

end Formulary
