import Formulary.Compile
import Formulary.Proofs.Code
import Formulary.Proofs.Parsing
import Formulary.Proofs.Supply

/-!
# Compilation preserves meaning

A formula that is read is well typed, since the conditions on widths that a derivation meets are
those that its code relies on. So a compiled program, run in place, ends with the vector that the
formula denotes.
-/

namespace Formulary

open Outcome (bind_eq_ok_iff)

/-! ## What is read is well typed -/

namespace Grammar.Derivation

/-- A list of scalars is as wide as it has operands. -/
theorem width_list {level : Level} (list : level = .list) {derivation : Derivation level}
    (scalars : ∀ width ∈ derivation.operandWidths, width = 1) :
    derivation.width.val = derivation.operandWidths.length := by
  induction derivation with
  | pass _ operand _ => exact scalars _ List.mem_cons_self
  | chain left sign _ _ right leftHypothesis _ =>
      cases sign with
      | comma =>
          have leftWidth := leftHypothesis rfl fun width member =>
            scalars width (List.mem_append_left _ member)
          have rightWidth := scalars right.width.val
            (List.mem_append_right _ List.mem_cons_self)
          simp only [width, Sign.width, operandWidths, List.length_append, List.length_singleton,
            leftWidth, rightWidth]
      | _ => cases list
  | signed sign => cases sign <;> cases list
  | _ => cases list

/-- The expression of an admissible derivation is well typed. -/
theorem wellTyped_tree {level : Level} {derivation : Derivation level}
    (admissible : derivation.Admissible) : derivation.tree.WellTyped := by
  induction derivation with
  | pass _ operand inductionHypothesis => exact inductionHypothesis admissible
  | chain left sign _ _ right leftHypothesis rightHypothesis =>
      obtain ⟨leftAdmissible, rightAdmissible, accepts⟩ := admissible
      have leftTyped := leftHypothesis leftAdmissible
      have rightTyped := rightHypothesis rightAdmissible
      cases sign with
      | logical operator =>
          exact ⟨leftTyped, rightTyped, left.width_tree.trans accepts.1,
            right.width_tree.trans accepts.2⟩
      | comparison operator =>
          exact ⟨leftTyped, rightTyped, left.width_tree.trans accepts.1,
            right.width_tree.trans accepts.2⟩
      | slash => exact ⟨leftTyped, rightTyped, right.width_tree.trans accepts⟩
      | _ => exact ⟨leftTyped, rightTyped⟩
  | signed sign _ _ operand inductionHypothesis =>
      cases sign with
      | not => exact ⟨inductionHypothesis admissible.1, operand.width_tree.trans admissible.2⟩
      | minus => exact inductionHypothesis admissible
  | atom leaf => cases leaf <;> trivial
  | group _ _ _ _ items inductionHypothesis => exact inductionHypothesis admissible
  | call function _ _ _ _ _ _ items inductionHypothesis =>
      obtain ⟨itemsAdmissible, matching, scalars⟩ := admissible
      refine ⟨inductionHypothesis itemsAdmissible, ?_⟩
      rw [items.width_tree, width_list rfl scalars, matching]

end Grammar.Derivation

/-! ## Compiled formulas -/

/-- A formula that is read from a text is well typed. -/
theorem wellTyped_of_read {scope : Scope} {text : String} {formula : Expression}
    (read : readExpression scope text = .ok formula) : formula.WellTyped := by
  obtain ⟨tokens, _, parsed⟩ := bind_eq_ok_iff.mp read
  obtain ⟨derivation, _, admissible, rfl⟩ :=
    (Grammar.sound tokens).1 .expression nofun formula [] (Grammar.parse_eq_ok_iff.mp parsed)
  exact Grammar.Derivation.wellTyped_tree admissible

theorem Program.steps_of_ofSteps {steps : List Step} {program : Program}
    (made : Program.ofSteps steps = .ok program) : program.steps = steps := by
  unfold Program.ofSteps at made
  split at made
  · cases made
    rfl
  · cases made

/-- What is compiled is the code of a well-typed formula with its result type. -/
theorem exists_formula {scope : Scope} {source : Source} {compiled : Compiled}
    (compiles : compile scope source = .ok compiled) :
    ∃ text formula, source.read = .ok text ∧ readExpression scope text = .ok formula ∧
      formula.WellTyped ∧ compiled.program.steps = formula.code ∧
      compiled.resultType = formula.resultType := by
  unfold compile at compiles
  split at compiles
  case h_1 => cases compiles
  case h_2 text found =>
      unfold compileText at compiles
      split at compiles
      case h_1 => cases compiles
      case h_2 formula read =>
          split at compiles
          case h_1 => cases compiles
          case h_2 program made =>
              cases compiles
              exact ⟨text, formula, found, read, wellTyped_of_read read,
                Program.steps_of_ofSteps made, rfl⟩

/-- A run of a compiled program that is supplied with what it reads ends, and leaves as many values
as the result is wide. -/
theorem exists_run {scope : Scope} {source : Source} {compiled : Compiled}
    (compiles : compile scope source = .ok compiled) {domain : Domain} {setting : Setting}
    (supplied : setting.Supplies domain compiled.program) :
    ∃ machine, (Evaluation.run domain.arithmetic setting compiled.program).result = .ok machine ∧
      machine.top = machine.values.length ∧
      (machine.top : Int) = compiled.resultType.width := by
  obtain ⟨text, formula, found, read, typed, steps, resultType⟩ := exists_formula compiles
  obtain ⟨bound, tolerance, decides⟩ := supplied.tolerance
  have balanced : ∀ step ∈ compiled.program.steps, step.Balanced := by
    rw [steps]
    exact Expression.balanced_code typed
  have room : compiled.program.shape.depth ≤
      (Machine.start domain.arithmetic compiled.program.shape.depth).memory.size := by
    simp [Machine.start]
  have related := Evaluation.execAll_related_balanced domain.arithmetic setting 0 balanced
    compiled.program.shape_eq (Machine.start_carries _ _) rfl room
  obtain ⟨values, ran, _⟩ := Evaluation.execAllList_succeeds tolerance decides 0 supplied.provides
    compiled.program.shape_eq (Nat.zero_le _)
  have leaves : (Evaluation.execAllList domain.arithmetic setting 0 compiled.program.steps
      []).result = formula.value domain.arithmetic setting bound := by
    rw [steps]
    exact (Expression.leaves_code tolerance typed 0 []).trans (congrFun Except.map_id _)
  have width : values.length = formula.width := Expression.length_value (leaves.symm.trans ran)
  obtain ⟨machine, finishes, ⟨_, carries⟩, _⟩ := related.result_of_right ran
  refine ⟨machine, finishes, ?_, ?_⟩
  · rw [carries.values_eq, carries.top_eq]
  · rw [carries.top_eq, width, resultType]
    rfl

/-- A run of a compiled formula ends as its meaning does: with the vector that it denotes, or with
the fault that keeps it from denoting one. Where everything that is read is there, it is a vector of
the width that the result type tells. -/
theorem run_compiled {scope : Scope} {source : Source} {compiled : Compiled}
    (compiles : compile scope source = .ok compiled) :
    ∃ text formula, source.read = .ok text ∧ readExpression scope text = .ok formula ∧
      ∀ (domain : Domain) (inputs : List Number) (store : Store) (bound : Number),
        let setting : Setting := ⟨inputs, store, some bound⟩
        let finished := (Evaluation.run domain.arithmetic setting compiled.program).result
        let meaning := formula.value domain.arithmetic setting bound
        finished.map Machine.values = meaning ∧
          (setting.Supplies domain compiled.program → ∃ machine, finished = .ok machine ∧
            meaning = .ok machine.values ∧ machine.top = machine.values.length ∧
            (machine.top : Int) = compiled.resultType.width) := by
  obtain ⟨text, formula, found, read, typed, steps, resultType⟩ := exists_formula compiles
  refine ⟨text, formula, found, read, ?_⟩
  intro domain inputs store bound setting finished meaning
  have balanced : ∀ step ∈ compiled.program.steps, step.Balanced := by
    rw [steps]
    exact Expression.balanced_code typed
  have room : compiled.program.shape.depth ≤
      (Machine.start domain.arithmetic compiled.program.shape.depth).memory.size := by
    simp [Machine.start]
  have related := Evaluation.execAll_related_balanced domain.arithmetic setting 0 balanced
    compiled.program.shape_eq (Machine.start_carries _ _) rfl room
  have leaves : (Evaluation.execAllList domain.arithmetic setting 0 compiled.program.steps
      []).result = meaning := by
    rw [steps]
    exact (Expression.leaves_code rfl typed 0 []).trans (congrFun Except.map_id meaning)
  have ends : finished.map Machine.values = meaning := by
    rw [← leaves]
    exact related.map_result_eq fun _ _ carried => carried.1.2.values_eq
  refine ⟨ends, fun supplied => ?_⟩
  obtain ⟨machine, finishes, top, width⟩ := exists_run compiles supplied
  refine ⟨machine, finishes, ?_, top, width⟩
  rw [← ends]
  exact congrArg (Except.map Machine.values) finishes

/-- Whether the number of a constant is within range. -/
def Step.fits : Step → Bool
  | constant found => !found.value.isTooLarge
  | _ => true

/-- The names of a formula with one argument. -/
def singleScope : Scope where
  symbols := { arguments := [("x", ⟨⟨1, Nat.one_pos⟩, ⟨1, Nat.one_pos⟩, false⟩)] }

/-- The setting of a point on the line. -/
def singleSetting (value : Float) : Setting := ⟨[.real value], fun _ => .real 0, some (.real 0)⟩

/-- A scaled pair compiles, and at every point its run leaves the two values that it denotes. -/
theorem run_scaledPair :
    ∃ compiled formula, compile singleScope (.text "(x, 2) * 3") = .ok compiled ∧
      readExpression singleScope "(x, 2) * 3" = .ok formula ∧ ∃ machine,
        (Evaluation.run Domain.real.arithmetic (singleSetting 5) compiled.program).result =
          .ok machine ∧
        formula.value Domain.real.arithmetic (singleSetting 5) (.real 0) = .ok machine.values ∧
        machine.top = 2 := by
  have checked : ((compile singleScope (.text "(x, 2) * 3")).toOption.any fun compiled =>
      compiled.program.shape.argumentCount == 1 && compiled.resultType.width == 2 &&
        compiled.program.steps.all Step.fits) = true := by decide +kernel
  cases compiles : compile singleScope (.text "(x, 2) * 3") with
  | error failure =>
      rw [compiles] at checked
      cases checked
  | ok compiled =>
      rw [compiles] at checked
      simp only [Except.toOption, Option.any_some, Bool.and_eq_true, beq_iff_eq,
        List.all_eq_true] at checked
      obtain ⟨⟨slots, width⟩, constants⟩ := checked
      have supplied : (singleSetting 5).Supplies .real compiled.program := by
        refine ⟨by rw [slots]; decide, ?_, ?_, fun _ _ => rfl, .real 0, rfl, rfl, rfl⟩
        · rintro number member
          rw [List.mem_singleton.mp member]
          exact ⟨rfl, fun _ => rfl⟩
        · intro constant member
          simpa [Step.fits] using constants _ member
      obtain ⟨text, formula, found, read, meanings⟩ := run_compiled compiles
      cases found
      obtain ⟨_, runs⟩ := meanings .real [.real 5] (fun _ => .real 0) (.real 0)
      obtain ⟨machine, ran, denotes, _, top⟩ := runs supplied
      exact ⟨compiled, formula, rfl, read, machine, ran, denotes, by omega⟩

end Formulary
