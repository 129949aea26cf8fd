import Formulary.Proofs.Compilation
import Formulary.Proofs.Complaints

/-!
# Compiling is total

Compiling a text ends in one of two ways: in a program as high as the result type is wide, or in a
compile error. What else could go wrong does not. Each step is made from widths that its constructor
accepts; the code of an expression takes nothing from the stack but what its operands left there,
wherever it stands; and reading never goes beyond the end of the source.
-/

namespace Formulary

namespace Step

/-- A step made anew from what it holds, by the constructor that checks it if there is one. -/
def remake : Step → Except StepError Step
  | argument slot => ofSlot slot.val
  | operator found => ofScalarCode found.opcode
  | vector found left right => ofVectorCode found.opcode left.val right.val
  | step => .ok step

theorem positive?_val (positive : Positive) : positive? positive.val = some positive := by
  obtain ⟨value, some⟩ := positive
  simp [positive?, some]

/-- The constructors accept what a step holds. -/
theorem remake_eq (step : Step) : step.remake = .ok step := by
  cases step with
  | argument slot => simp only [remake, ofSlot, positive?_val]
  | operator found => simp only [remake, ofScalarCode, Opcode.operator?_opcode]
  | vector found left right =>
      simp only [remake, ofVectorCode, Opcode.vectorOperator?_opcode, positive?_val]
  | _ => rfl

end Step

/-! ## Code that can stand anywhere -/

namespace Shape

/-- Steps that take nothing from a stack but what they put there, and leave a number of values on
it. -/
def Raises (steps : List Step) (width : Nat) : Prop :=
  ∀ index shape, ∃ next, extendAll index shape steps = .ok next ∧
    next.height = shape.height + width

/-- A step extends a shape that holds its operands. -/
theorem exists_extend (index : Nat) {shape : Shape} {step : Step}
    (enough : step.operands ≤ shape.height) : ∃ next, extend index shape step = .ok next := by
  have operands := (step.operands_le_iff shape.height).mp enough
  unfold extend
  rw [if_neg (by omega)]
  cases step <;> exact ⟨_, rfl⟩

theorem raises_nil : Raises [] 0 := fun _ shape => ⟨shape, rfl, rfl⟩

namespace Raises

variable {first second steps : List Step} {width more : Nat}

theorem append (raises : Raises first width) (further : Raises second more) :
    Raises (first ++ second) (width + more) := by
  intro index shape
  obtain ⟨middle, extended, height⟩ := raises index shape
  obtain ⟨next, finished, taller⟩ := further (index + first.length) middle
  exact ⟨next, extendAll_append_iff.mpr ⟨middle, extended, finished⟩, by omega⟩

/-- A balanced step at the end takes what the steps before it left. -/
theorem snoc (raises : Raises steps width) (step : Step) (exact : width = step.operands)
    (balanced : step.Balanced) : Raises (steps ++ [step]) step.results := by
  intro index shape
  obtain ⟨middle, extended, height⟩ := raises index shape
  have enough : step.operands ≤ middle.height := by omega
  obtain ⟨next, last⟩ := exists_extend (index + steps.length) enough
  refine ⟨next, extendAll_append_iff.mpr ⟨middle, extended, ?_⟩, ?_⟩
  · exact extendAll_cons_iff.mpr ⟨next, last, rfl⟩
  · have left := (step.heightAfter_eq_iff enough).mpr balanced
    rw [← (extend_follows last).height_eq] at left
    omega

end Raises

theorem raises_slots (slots : List Positive) : Raises (slots.map .argument) slots.length := by
  induction slots with
  | nil => exact raises_nil
  | cons slot rest inductionHypothesis =>
      have first : Raises [.argument slot] 1 :=
        raises_nil.snoc (.argument slot) rfl trivial
      simpa [Nat.add_comm] using first.append inductionHypothesis

end Shape

namespace Expression

open Shape (Raises raises_nil raises_slots)

theorem results_sumStep (sign : SumSign) (left right : Expression) :
    (sumStep sign left right).results = (sum sign left right).width := by
  unfold sumStep
  split
  case isTrue scalars =>
      rw [width, scalars.1, scalars.2]
      cases sign <;> rfl
  case isFalse => cases sign <;> rfl

theorem results_productStep (left right : Expression) :
    (productStep left right).results = (product left right).width := by
  have leftSome := left.width_pos
  have rightSome := right.width_pos
  rw [width]
  unfold productStep
  split
  case isTrue leftScalar =>
      split
      case isTrue rightScalar => rw [rightScalar]; rfl
      case isFalse => simp only [Step.results, positiveWidth]; omega
  case isFalse =>
      split
      case isTrue rightScalar => simp only [Step.results, positiveWidth]; omega
      case isFalse => rfl

theorem results_quotientStep {left right : Expression} (divisor : right.width = 1) :
    (quotientStep left right).results = (quotient left right).width := by
  have leftSome := left.width_pos
  rw [width]
  unfold quotientStep
  split
  case isTrue scalar => rw [scalar]; rfl
  case isFalse => simp only [Step.results, positiveWidth]; omega

/-- The code of an expression can stand anywhere and leaves as many values as the expression has
components. -/
theorem raises_code {expression : Expression} (typed : expression.WellTyped) :
    Raises expression.code expression.width := by
  induction expression with
  | constant found => exact raises_nil.snoc (.constant found) rfl trivial
  | cell named => exact raises_nil.snoc (.external named) rfl trivial
  | argument declared =>
      have slots := raises_slots declared.slots
      rwa [declared.length_slots] at slots
  | call function operand inductionHypothesis =>
      exact (inductionHypothesis typed.1).snoc (.call function) typed.2 trivial
  | concat left right leftHypothesis rightHypothesis =>
      exact (leftHypothesis typed.1).append (rightHypothesis typed.2)
  | negate operand inductionHypothesis =>
      exact (inductionHypothesis typed).snoc (.negate operand.width) rfl trivial
  | not operand inductionHypothesis =>
      exact (inductionHypothesis typed.1).snoc (.operator .not) typed.2 trivial
  | logical operator left right leftHypothesis rightHypothesis =>
      obtain ⟨leftTyped, rightTyped, leftScalar, rightScalar⟩ := typed
      refine ((leftHypothesis leftTyped).append (rightHypothesis rightTyped)).snoc
        (.operator (.logical operator)) ?_ trivial
      rw [leftScalar, rightScalar]
      rfl
  | comparison operator left right leftHypothesis rightHypothesis =>
      obtain ⟨leftTyped, rightTyped, leftScalar, rightScalar⟩ := typed
      refine ((leftHypothesis leftTyped).append (rightHypothesis rightTyped)).snoc
        (.operator (.comparison operator)) ?_ trivial
      rw [leftScalar, rightScalar]
      rfl
  | sum sign left right leftHypothesis rightHypothesis =>
      rw [← results_sumStep]
      exact ((leftHypothesis typed.1).append (rightHypothesis typed.2)).snoc _
        (operands_sumStep sign left right).symm (wellWidthed_sumStep sign left right).balanced
  | product left right leftHypothesis rightHypothesis =>
      rw [← results_productStep]
      exact ((leftHypothesis typed.1).append (rightHypothesis typed.2)).snoc _
        (operands_productStep left right).symm (wellWidthed_productStep left right).balanced
  | quotient left right leftHypothesis rightHypothesis =>
      obtain ⟨leftTyped, rightTyped, divisor⟩ := typed
      rw [← results_quotientStep divisor]
      exact ((leftHypothesis leftTyped).append (rightHypothesis rightTyped)).snoc _
        (operands_quotientStep divisor).symm (wellWidthed_quotientStep divisor).balanced

end Expression

/-! ## Reading and compiling -/

namespace Grammar

/-- What is read at a level has a derivation. -/
theorem exists_derivation {finish : Nat} {level : Level} {tokens rest : List Token}
    {whole : Expression} (ran : read finish level tokens = .ok (whole, rest)) :
    ∃ derivation : Derivation level, derivation.tokens ++ rest = tokens ∧
      derivation.Admissible ∧ derivation.tree = whole := by
  by_cases list : level = .list
  · subst list
    cases found : readItems finish tokens with
    | error error =>
        rw [read, found] at ran
        cases ran
    | ok result =>
        rw [read, found] at ran
        cases ran
        obtain ⟨derivation, yields, admissible, same⟩ := (sound tokens).2 result.1 result.2 found
        exact ⟨derivation, yields, admissible, (Derivation.join_eq_tree same.symm).symm⟩
  · exact (sound tokens).1 level list whole rest ran

theorem Derivation.tokens_ne_nil {level : Level} (derivation : Derivation level) :
    derivation.tokens ≠ [] := by
  induction derivation with
  | pass _ operand inductionHypothesis => exact inductionHypothesis
  | _ => simp [tokens]

/-- What reading at a level went over, and what it read. -/
structure Forward (tokens : List Token) (whole : Expression) (rest : List Token) : Prop where
  inside : rest <:+ tokens
  consumes : rest.length < tokens.length
  raises : Shape.Raises whole.code whole.width
  positive : 1 ≤ whole.width

/-- Reading at a level goes forward by a token at least, and not beyond the last. What it reads has
at least one component, and its code can stand anywhere. -/
theorem forward_of_read {finish : Nat} {level : Level} {tokens rest : List Token}
    {whole : Expression} (ran : read finish level tokens = .ok (whole, rest)) :
    Forward tokens whole rest := by
  obtain ⟨derivation, rfl, admissible, rfl⟩ := exists_derivation ran
  refine ⟨List.suffix_append _ _, ?_, ?_, Expression.width_pos _⟩
  · have := List.length_pos_iff.mpr derivation.tokens_ne_nil
    rw [List.length_append]
    omega
  · exact Expression.raises_code (Derivation.wellTyped_tree admissible)

end Grammar

/-- The program of a compiled formula is as high as its result is wide, at least one, and its steps
are what their constructors make. -/
structure Compiled.Sound (compiled : Compiled) : Prop where
  height_eq : (compiled.program.shape.height : Int) = compiled.resultType.width
  positive : 1 ≤ compiled.program.shape.height
  remade : ∀ step ∈ compiled.program.steps, step.remake = .ok step

/-- Steps that have a shape make a program. -/
theorem Program.ofSteps_eq_ok {steps : List Step} {shape : Shape}
    (extended : Shape.ofSteps steps = .ok shape) :
    Program.ofSteps steps = .ok ⟨steps, shape, extended⟩ := by
  unfold Program.ofSteps
  split
  case h_1 other same =>
      rw [extended] at same
      cases same
      rfl
  case h_2 error failed =>
      rw [extended] at failed
      cases failed

/-- Code that can stand anywhere makes a program of its height. -/
theorem Program.exists_ofSteps {steps : List Step} {width : Nat}
    (raises : Shape.Raises steps width) :
    ∃ program, Program.ofSteps steps = .ok program ∧ program.shape.height = width := by
  obtain ⟨shape, extended, height⟩ := raises 0 {}
  exact ⟨⟨steps, shape, extended⟩, ofSteps_eq_ok extended, by simpa using height⟩

/-- Every text compiles to a sound program, or there is a compile error: one of the scan, or a
complaint about the tokens that were scanned or the end of the source behind them. On the way,
reading goes forward at every level and not beyond the end of the source. -/
theorem compile_total (scope : Scope) (text : String) :
    ((∃ compiled, compile scope (.text text) = .ok compiled ∧ compiled.Sound) ∨
      ∃ error, compile scope (.text text) = .error (.source (.compile error)) ∧
        (tokenize scope text = .error error ∨ ∃ tokens, tokenize scope text = .ok tokens ∧
          Expression.Complaint (tokens ++ [Token.finish text.length]) error)) ∧
    ∀ (level : Grammar.Level) (tokens rest : List Token) (whole : Expression),
      Grammar.read text.length level tokens = .ok (whole, rest) →
        Grammar.Forward tokens whole rest := by
  refine ⟨?_, fun _ _ _ _ => Grammar.forward_of_read⟩
  simp only [compile, Source.read, compileText]
  cases read : readExpression scope text with
  | error error =>
      refine .inr ⟨error, rfl, ?_⟩
      cases scanned : tokenize scope text with
      | error cause =>
          rw [readExpression, scanned] at read
          exact .inl (congrArg Except.error (Except.error.inj read))
      | ok tokens =>
          rw [readExpression, scanned] at read
          exact .inr ⟨tokens, rfl, Expression.complaint_of_parse read⟩
  | ok formula =>
      obtain ⟨program, made, height⟩ :=
        Program.exists_ofSteps (Expression.raises_code (wellTyped_of_read read))
      refine .inl ⟨⟨program, formula.resultType⟩, by simp only [made], ?_, ?_, ?_⟩
      · exact congrArg Nat.cast height
      · exact height ▸ formula.width_pos
      · exact fun step _ => step.remake_eq

end Formulary
