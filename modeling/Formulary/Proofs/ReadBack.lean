import Formulary.Proofs.Rereading
import Formulary.Proofs.Totality

/-!
# Compiled formulas read back

The text of a compiled formula compiles again. If the constants of the formula are doubles without
signs it compiles to the same program and result type: the text is read as the formula itself, but
for the marks of its constants.
-/

namespace Formulary

open Grammar (Level Sign)

/-! ## Formulas that are read as themselves -/

/-- A step without the mark of the constant that it pushes. -/
def Step.unmarked : Step → Step
  | constant found => constant { value := found.value }
  | step => step

/-- Whether a step pushes no constant other than a finite double without a sign. -/
def Step.isUnsigned : Step → Bool
  | constant found => found.value.isUnsigned
  | _ => true

theorem Step.hasUnsignedParts_of_isUnsigned {step : Step} (unsigned : step.isUnsigned = true) :
    step.hasUnsignedParts = true := by
  cases step with
  | constant found =>
      obtain ⟨_, _, real, _⟩ := Number.isUnsigned_iff.mp unsigned
      rw [isUnsigned, real] at unsigned
      rw [hasUnsignedParts, real]
      exact unsigned
  | _ => rfl

theorem Grammar.Sign.map_unmarked_steps {level : Level} (sign : Sign level)
    (left right : Positive) :
    (sign.steps left right).map Step.unmarked = sign.steps left right := by
  cases sign with
  | sum sign => cases sign <;> simp only [steps] <;> split <;> rfl
  | star =>
      simp only [steps]
      split
      · rfl
      · split
        · rfl
        · split <;> rfl
  | slash => simp only [steps]; split <;> rfl
  | _ => rfl

namespace Expression

/-- What an expression reads as whose text is read as itself: its constants lose their marks. -/
def unmarkedReading (expression : Expression) : Reading :=
  ⟨expression.code.map Step.unmarked, expression.positiveWidth, expression.isBoolean,
    expression.isComplex⟩

section Unsigned

variable {expression left right : Expression}
  (unsigned : ∀ step ∈ expression.code, step.isUnsigned = true)

include unsigned

theorem imaginary?_of_unsigned : expression.imaginary? = none := by
  cases expression with
  | constant found =>
      obtain ⟨_, _, real, _⟩ := Number.isUnsigned_iff.mp (unsigned _ (.head _))
      rw [imaginary?, real]
      rfl
  | _ => rfl

theorem behind_of_unsigned (apply : Expression → Expression) (again : Expression) :
    behind apply expression again = apply again := by
  rw [behind, imaginary?_of_unsigned unsigned]

end Unsigned

theorem code_join_reread {level : Level} (sign : Sign level) {left right : Expression}
    (leftCode : left.reread.code = left.code.map Step.unmarked)
    (rightCode : right.reread.code = right.code.map Step.unmarked) :
    (sign.join left.reread right.reread).code = (sign.join left right).code.map Step.unmarked := by
  rw [sign.code_join, sign.code_join, leftCode, rightCode, positiveWidth_reread,
    positiveWidth_reread, List.map_append, List.map_append, sign.map_unmarked_steps]

/-- Without complex constants and signs, code is read as it was written. -/
theorem code_reread_of_unsigned {expression : Expression}
    (unsigned : ∀ step ∈ expression.code, step.isUnsigned = true) :
    expression.reread.code = expression.code.map Step.unmarked := by
  induction expression with
  | constant found =>
      obtain ⟨value, _, real, _⟩ := Number.isUnsigned_iff.mp (unsigned _ (.head _))
      rw [reread, real, code, List.map_singleton, Step.unmarked, real]
      rfl
  | cell named => rfl
  | argument declared => simp [reread, code, Step.unmarked]
  | call function operand inductionHypothesis =>
      have inOperand := (List.forall_mem_append.mp unsigned).1
      rw [reread, code, inductionHypothesis inOperand, code, List.map_append]
      rfl
  | concat left right leftHypothesis rightHypothesis =>
      obtain ⟨inLeft, inRight⟩ := List.forall_mem_append.mp unsigned
      exact code_join_reread .comma (leftHypothesis inLeft) (rightHypothesis inRight)
  | negate operand inductionHypothesis =>
      have inOperand := (List.forall_mem_append.mp unsigned).1
      rw [reread, behind_of_unsigned inOperand, code, inductionHypothesis inOperand, code,
        List.map_append, width_reread]
      rfl
  | not operand inductionHypothesis =>
      have inOperand := (List.forall_mem_append.mp unsigned).1
      rw [reread, code, inductionHypothesis inOperand, code, List.map_append]
      rfl
  | logical operator left right leftHypothesis rightHypothesis =>
      obtain ⟨inLeft, inRight⟩ := List.forall_mem_append.mp (List.forall_mem_append.mp unsigned).1
      exact code_join_reread (.logical operator) (leftHypothesis inLeft) (rightHypothesis inRight)
  | comparison operator left right leftHypothesis rightHypothesis =>
      obtain ⟨inLeft, inRight⟩ := List.forall_mem_append.mp (List.forall_mem_append.mp unsigned).1
      exact code_join_reread (.comparison operator) (leftHypothesis inLeft)
        (rightHypothesis inRight)
  | sum sign left right leftHypothesis rightHypothesis =>
      obtain ⟨inLeft, inRight⟩ := List.forall_mem_append.mp (List.forall_mem_append.mp unsigned).1
      exact code_join_reread (.sum sign) (leftHypothesis inLeft) (rightHypothesis inRight)
  | product left right leftHypothesis rightHypothesis =>
      obtain ⟨inLeft, inRight⟩ := List.forall_mem_append.mp (List.forall_mem_append.mp unsigned).1
      rw [reread, behind_of_unsigned inRight]
      exact code_join_reread .star (leftHypothesis inLeft) (rightHypothesis inRight)
  | quotient left right leftHypothesis rightHypothesis =>
      obtain ⟨inLeft, inRight⟩ := List.forall_mem_append.mp (List.forall_mem_append.mp unsigned).1
      rw [reread, behind_of_unsigned inRight]
      exact code_join_reread .slash (leftHypothesis inLeft) (rightHypothesis inRight)

theorem reading_reread_of_unsigned {expression : Expression}
    (unsigned : ∀ step ∈ expression.code, step.isUnsigned = true) :
    expression.reread.reading = expression.unmarkedReading := by
  ext1
  · exact code_reread_of_unsigned unsigned
  · exact expression.positiveWidth_reread
  · exact expression.isBoolean_reread
  · exact expression.isComplex_reread

/-- Whether the text of an expression is read as the expression itself, at every level. -/
structure ReadsBack (scope : Scope) (naming : Naming) (expression : Expression) : Prop where
  again : expression.ReadsAgain scope naming expression.reread
  closed : expression.level = .primary
  same : expression.reread.reading = expression.unmarkedReading

theorem ReadsBack.joined {scope : Scope} {naming : Naming} {expression : Expression}
    (back : expression.ReadsBack scope naming) :
    ReadsAs scope .primary ((Replayed.joined expression.entries).text naming)
      expression.unmarkedReading := by
  have reads := back.again.joined
  rwa [back.closed, back.same] at reads

/-- The text of a formula whose leaves are known by their names is read back. -/
theorem readsBack {scope : Scope} (readable : scope.symbols.Readable) (store : Store)
    {expression : Expression} (stems : expression.StemsFrom scope.Offers)
    (typed : expression.WellTyped) (flat : expression.Flat)
    (unsigned : ∀ step ∈ expression.code, step.isUnsigned = true) :
    expression.ReadsBack scope (.ofTables scope.symbols store) where
  again := readsAgain readable store stems typed flat fun step member =>
    step.hasUnsignedParts_of_isUnsigned (unsigned step member)
  closed := by rw [level, imaginary?_of_unsigned unsigned]; rfl
  same := reading_reread_of_unsigned unsigned

end Expression

/-! ## Compiled formulas -/

namespace ReadsBefore

variable {scope : Scope} {text : String} {reading : Reading}

/-- A text that is read as an expression compiles to its steps. -/
theorem compiles (reads : ReadsBefore scope Lexer.Ends .expression text reading) :
    ∃ again, compile scope (.text text) = .ok again ∧ again.program.steps = reading.steps ∧
      again.resultType = ⟨reading.width.val, reading.isBoolean, reading.isComplex⟩ := by
  obtain ⟨lexemes, spells, derives⟩ := reads
  obtain ⟨tokens, said, scanned⟩ := spells 0 [] [] trivial (.finish _)
  obtain ⟨derivation, yields, admissible, rfl⟩ := derives tokens said
  rw [List.append_nil, List.append_nil] at scanned
  have tokenized : tokenize scope text = .ok tokens := Lexer.scan_eq_ok_iff.mpr scanned
  have read : readExpression scope text = .ok derivation.tree := by
    rw [readExpression, tokenized, ← yields]
    exact Grammar.parse_tokens text.length admissible
  obtain ⟨program, made, _⟩ :=
    Program.exists_ofSteps (Expression.raises_code (wellTyped_of_read read))
  refine ⟨⟨program, derivation.tree.resultType⟩, ?_, ?_, derivation.resultType_tree⟩
  · simp only [compile, Source.read, compileText, read, made]
  · exact (Program.steps_of_ofSteps made).trans derivation.code_tree

end ReadsBefore

namespace Step

theorem isUnwritable_eq {step : Step} (unsigned : step.isUnsigned = true) :
    step.isUnwritable = false := by
  cases step with
  | constant found =>
      obtain ⟨value, _, real, _⟩ := Number.isUnsigned_iff.mp unsigned
      rw [isUnwritable, real]
      rfl
  | _ => rfl

theorem same_unmarked {step : Step} (unsigned : step.isUnsigned = true) :
    step.unmarked.same step = true := by
  cases step with
  | constant found =>
      obtain ⟨value, parts, real, decoded, _⟩ := Number.isUnsigned_iff.mp unsigned
      have defined : value ≠ Float.nan := by
        rintro rfl
        have none : Binary64.decode? Float.nan = none := by decide +kernel
        rw [none] at decoded
        cases decoded
      have equal : (value == value) = true := Float.beq_self_iff.mpr defined
      simp [unmarked, same, Constant.same, real, Number.equal, equal]
  | _ => simp [unmarked, same]

end Step

/-- Steps without their marks are the same as the steps. -/
theorem Program.sameSteps_unmarked {steps : List Step}
    (unsigned : ∀ step ∈ steps, step.isUnsigned = true) :
    sameSteps (steps.map Step.unmarked) steps = true := by
  induction steps with
  | nil => rfl
  | cons step rest inductionHypothesis =>
      obtain ⟨first, others⟩ := List.forall_mem_cons.mp unsigned
      rw [List.map_cons, sameSteps, step.same_unmarked first, inductionHypothesis others]
      rfl

/-- The text of a compiled formula compiles again, to the same program and result type. The steps
are those of the formula up to the marks of its constants, of which a literal has none. -/
theorem compile_formulaText {scope : Scope} {source : Source} {compiled : Compiled}
    (compiles : compile scope source = .ok compiled) (readable : scope.symbols.Readable)
    (constants : ∀ found, Step.constant found ∈ compiled.program.steps →
      found.value.isUnsigned = true) (store : Store) :
    ∃ text again, compiled.program.formulaText (.ofTables scope.symbols store) = .ok text ∧
      compile scope (.text text) = .ok again ∧
      again.program.steps = compiled.program.steps.map Step.unmarked ∧
      again.program.same compiled.program = true ∧ again.resultType = compiled.resultType := by
  obtain ⟨_, formula, _, read, typed, steps, resultType⟩ := exists_formula compiles
  have unsigned : ∀ step ∈ formula.code, step.isUnsigned = true := by
    rw [← steps]
    intro step member
    cases step with
    | constant found => exact constants found member
    | _ => rfl
  have flat := flat_of_read read
  have writable : Expression.Writable formula.code :=
    fun step member => step.isUnwritable_eq (unsigned step member)
  have back := Expression.readsBack readable store (stemsFrom_of_read read) typed flat unsigned
  obtain ⟨again, compilesAgain, stepsAgain, resultAgain⟩ := (back.joined.lift .expression).compiles
  refine ⟨_, again, ?_, compilesAgain, ?_, ?_, ?_⟩
  · rw [Program.formulaText, Program.replay_eq steps typed flat writable]
    rfl
  · rw [stepsAgain, steps]
    rfl
  · rw [Program.same, stepsAgain, steps]
    exact Program.sameSteps_unmarked unsigned
  · rw [resultAgain, resultType]
    rfl

/-- The names of a formula with two arguments, one of them complex, and a cell. -/
def planeScope : Scope where
  symbols := {
    arguments := [("x", ⟨⟨1, Nat.one_pos⟩, ⟨1, Nat.one_pos⟩, false⟩),
      ("y", ⟨⟨2, Nat.two_pos⟩, ⟨1, Nat.one_pos⟩, true⟩)]
    cells := [("time", ⟨7⟩)] }

theorem readable_planeScope : planeScope.symbols.Readable := by
  refine ⟨by decide, by decide, by decide, by decide, by decide, ?_, by decide⟩
  simp only [planeScope, List.map_cons, List.map_nil, List.forall_mem_append, List.forall_mem_cons]
  refine ⟨⟨?_, ?_, nofun⟩, ?_, nofun⟩ <;>
    exact ⟨_, _, rfl, by decide +kernel, by decide +kernel⟩

/-- A vector formula compiles to the same program from its text. -/
theorem compile_formulaText_plane :
    ∃ compiled text again, compile planeScope (.text "(x, -y * 0.1) + (time, 3)") = .ok compiled ∧
      compiled.program.formulaText (.ofTables planeScope.symbols fun _ => .int 0) = .ok text ∧
      compile planeScope (.text text) = .ok again ∧
      again.program.same compiled.program = true ∧ again.resultType = compiled.resultType := by
  have checked : ((compile planeScope (.text "(x, -y * 0.1) + (time, 3)")).toOption.any
      fun compiled => compiled.program.steps.all Step.isUnsigned) = true := by decide +kernel
  cases compiles : compile planeScope (.text "(x, -y * 0.1) + (time, 3)") with
  | error failure =>
      rw [compiles] at checked
      cases checked
  | ok compiled =>
      rw [compiles] at checked
      simp only [Except.toOption, Option.any_some, List.all_eq_true] at checked
      obtain ⟨text, again, written, compilesAgain, _, same, resultType⟩ :=
        compile_formulaText compiles readable_planeScope (fun found member => checked _ member)
          fun _ => .int 0
      exact ⟨compiled, text, again, rfl, written, compilesAgain, same, resultType⟩

end Formulary
