import Formulary.Proofs.ExactArithmetic
import Formulary.Proofs.ReadBack

/-!
# What the text of a formula means

The text of a compiled formula whose constants are finite, with no sign set in their parts, compiles
again. In exact arithmetic the program that results has the values of the formula, except that the
quotients by an imaginary constant have changed their signs. So the text keeps the meaning of every
formula that has no such quotient.
-/

namespace Formulary

/-- A run of the code of a well-typed expression ends with the vector that the expression denotes,
or with the fault that keeps it from denoting one. -/
theorem Evaluation.values_run {α : Type} (arithmetic : Arithmetic α) {setting : Setting}
    {bound : Number} (tolerance : setting.tolerance = some bound) {program : Program}
    {expression : Expression} (steps : program.steps = expression.code)
    (typed : expression.WellTyped) :
    (run arithmetic setting program).result.map Machine.values =
      expression.value arithmetic setting bound := by
  have balanced : ∀ step ∈ program.steps, step.Balanced := by
    rw [steps]
    exact Expression.balanced_code typed
  have room : program.shape.depth ≤
      (Machine.start arithmetic program.shape.depth).memory.size := by
    simp [Machine.start]
  have related := execAll_related_balanced arithmetic setting 0 balanced program.shape_eq
    (Machine.start_carries _ _) rfl room
  calc (run arithmetic setting program).result.map Machine.values
      = (execAllList arithmetic setting 0 program.steps []).result :=
        related.map_result_eq fun _ _ carried => carried.1.2.values_eq
    _ = (execAllList arithmetic setting 0 expression.code []).result := by rw [steps]
    _ = (expression.value arithmetic setting bound).map id :=
        Expression.leaves_code tolerance typed 0 []
    _ = expression.value arithmetic setting bound := congrFun Except.map_id _

/-- A number whose parts are finite doubles has a text. -/
theorem Step.isUnwritable_of_hasUnsignedParts {step : Step}
    (plain : step.hasUnsignedParts = true) : step.isUnwritable = false := by
  cases step with
  | constant found =>
      obtain ⟨number, entry⟩ := found
      cases number with
      | int => cases plain
      | _ => rfl
  | _ => rfl

/-- The text of a compiled formula compiles again, with the same result type. In exact arithmetic,
whatever the builtin functions are, it has the values of the formula with its quotients by imaginary
constants turned to their opposites: those of the formula, if there is no such quotient. -/
theorem formulaText_meaning {scope : Scope} {source : Source} {compiled : Compiled}
    (compiles : compile scope source = .ok compiled) (readable : scope.symbols.Readable)
    (constants : ∀ found, Step.constant found ∈ compiled.program.steps →
      found.value.hasUnsignedParts = true) (store : Store) :
    ∃ text formula shown again, source.read = .ok text ∧
      readExpression scope text = .ok formula ∧
      compiled.program.formulaText (.ofTables scope.symbols store) = .ok shown ∧
      compile scope (.text shown) = .ok again ∧ again.resultType = compiled.resultType ∧
      ∀ (functions : Builtin → List ℂ → ℂ) (output : ℂ → Number) (inputs : List Number)
        (cells : Store) (bound : Number),
        let arithmetic := Arithmetic.exact functions output
        let setting : Setting := ⟨inputs, cells, some bound⟩
        let values (program : Program) :=
          (Evaluation.run arithmetic setting program).result.map Machine.values
        values compiled.program = formula.value arithmetic setting bound ∧
          values again.program = formula.turned.value arithmetic setting bound ∧
          (formula.dividesByImaginary = false →
            values again.program = values compiled.program) := by
  obtain ⟨text, formula, found, read, typed, steps, resultType⟩ := exists_formula compiles
  have plain : ∀ step ∈ formula.code, step.hasUnsignedParts = true := by
    rw [← steps]
    intro step member
    cases step with
    | constant found => exact constants found member
    | _ => rfl
  have flat := flat_of_read read
  have writable : Expression.Writable formula.code :=
    fun step member => step.isUnwritable_of_hasUnsignedParts (plain step member)
  have reads := Expression.readsAgain readable store (stemsFrom_of_read read) typed flat plain
  obtain ⟨again, compilesAgain, stepsAgain, resultAgain⟩ :=
    (reads.operand .expression (by decide)).compiles
  refine ⟨text, formula, _, again, found, read, ?_, compilesAgain, ?_, ?_⟩
  · rw [Program.formulaText, Program.replay_eq steps typed flat writable]
    rfl
  · rw [resultAgain, resultType, ← formula.resultType_reread]
    rfl
  · intro functions output inputs cells bound arithmetic setting values
    have first : values compiled.program = formula.value arithmetic setting bound :=
      Evaluation.values_run arithmetic rfl steps typed
    have second : values again.program = formula.turned.value arithmetic setting bound :=
      (Evaluation.values_run arithmetic rfl stepsAgain (Expression.wellTyped_reread typed)).trans
        (Expression.value_reread plain)
    refine ⟨first, second, fun none => ?_⟩
    rw [first, second, Expression.turned_eq_self none]

/-- The text of a formula means what the formula means where the imaginary unit stands behind a
product and a sign and before a quotient. -/
theorem formulaText_meaning_plane :
    ∃ compiled shown again, compile planeScope (.text "(x * I, -I) + I / y") = .ok compiled ∧
      compiled.program.formulaText (.ofTables planeScope.symbols fun _ => .int 0) = .ok shown ∧
      compile planeScope (.text shown) = .ok again ∧ again.resultType = compiled.resultType ∧
      ∀ (functions : Builtin → List ℂ → ℂ) (output : ℂ → Number) (inputs : List Number)
        (cells : Store) (bound : Number),
        let values (program : Program) := (Evaluation.run (Arithmetic.exact functions output)
          ⟨inputs, cells, some bound⟩ program).result.map Machine.values
        values again.program = values compiled.program := by
  have checked : ((compile planeScope (.text "(x * I, -I) + I / y")).toOption.any fun compiled =>
      compiled.program.steps.all Step.hasUnsignedParts) = true := by decide +kernel
  have undivided : ((readExpression planeScope "(x * I, -I) + I / y").toOption.all fun formula =>
      !formula.dividesByImaginary) = true := by decide +kernel
  cases compiles : compile planeScope (.text "(x * I, -I) + I / y") with
  | error failure =>
      rw [compiles] at checked
      cases checked
  | ok compiled =>
      rw [compiles] at checked
      simp only [Except.toOption, Option.any_some, List.all_eq_true] at checked
      obtain ⟨_, formula, shown, again, found, read, written, compilesAgain, resultType, means⟩ :=
        formulaText_meaning compiles readable_planeScope (fun found member => checked _ member)
          fun _ => .int 0
      cases found
      rw [read] at undivided
      have none : formula.dividesByImaginary = false := by simpa [Except.toOption] using undivided
      refine ⟨compiled, shown, again, rfl, written, compilesAgain, resultType, ?_⟩
      intro functions output inputs cells bound
      exact (means functions output inputs cells bound).2.2 none

/-- The imaginary unit is written without parentheses, so that what stands before it is read with
the literal. -/
example : constantText (.complex Cartesian.unit) = "1.0*I" := by decide +kernel

end Formulary
