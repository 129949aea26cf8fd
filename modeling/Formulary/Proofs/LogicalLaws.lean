import Formulary.Proofs.SourceParts
import Formulary.Proofs.TextMeaning

/-!
# Logical laws

Where one counts as true and zero as false, the operators on truth values obey the laws of logic,
whatever their operands are. A scalar enters into a boolean operator by nothing but the test whether
its real part exceeds the tolerance, and the scalar of a truth value passes the test exactly if it
is true. So a negation goes through conjunctions and disjunctions, two of them make a truth value of
a scalar, and a negated order is the other order with equality. A comparison asks something else of
its operands than a boolean operator does, and may be impossible, but it asks the same question for
an order and for its opposite.

The laws are about sources: each side is put together from the texts of two sources that compile to
scalars, with parentheses around them.
-/

namespace Formulary

/-! ## Truth under a tolerance -/

/-- Whether one counts as true under a tolerance, and zero as false. -/
structure Tolerance.TellsTruth (bound : Number) : Prop where
  one : isExceeded 1 bound = .ok true
  zero : isExceeded 0 bound = .ok false

/-- A tolerance with which one double is compared is compared with all of them. -/
theorem Tolerance.TellsTruth.exists_test {bound : Number} (tells : TellsTruth bound) :
    ∃ test : Float → Bool, ∀ value, isExceeded value bound = .ok (test value) := by
  cases bound with
  | int whole =>
      obtain ⟨found, converted, _⟩ := Outcome.map_eq_ok_iff.mp tells.one
      exact ⟨fun value => found < value, fun value => by rw [isExceeded, converted]; rfl⟩
  | real found => exact ⟨_, fun _ => rfl⟩
  | complex found => exact ⟨_, fun _ => rfl⟩

/-- Whether a test decides which scalars count as true, and tells the scalars of truth values. -/
structure Arithmetic.DecidedBy {α : Type} (arithmetic : Arithmetic α) (bound : Number)
    (test : α → Bool) : Prop where
  exceeds : ∀ value, arithmetic.exceeds value bound = .ok (test value)
  test_truth : ∀ values flag, test (arithmetic.realPart (arithmetic.truth values flag)) = flag
  truth_eq : ∀ values flag, arithmetic.truth values flag = arithmetic.truth [] flag

theorem Domain.exists_decidedBy (domain : Domain) {bound : Number}
    (tells : Tolerance.TellsTruth bound) :
    ∃ test, domain.arithmetic.DecidedBy bound test := by
  obtain ⟨test, decides⟩ := tells.exists_test
  have one : test 1 = true := Except.ok.inj ((decides 1).symm.trans tells.one)
  have zero : test 0 = false := Except.ok.inj ((decides 0).symm.trans tells.zero)
  cases domain with
  | real =>
      refine ⟨test, decides, fun _ flag => ?_, fun _ _ => rfl⟩
      cases flag
      · exact zero
      · exact one
  | complex =>
      refine ⟨fun value => test value.re, fun value => decides value.re, fun _ flag => ?_,
        fun _ _ => rfl⟩
      cases flag
      · exact zero
      · exact one

/-! ## Operators and their opposites -/

namespace Logical

/-- A boolean operator on truth values. -/
def ofTruths : Logical → Bool → Bool → Bool
  | .and => Bool.and
  | .or => Bool.or

/-- The operator into which a negation turns another one. -/
def dual : Logical → Logical
  | .and => .or
  | .or => .and

theorem ofTruths_dual (operator : Logical) (left right : Bool) :
    operator.dual.ofTruths (!left) (!right) = !operator.ofTruths left right := by
  cases operator with
  | and => exact (Bool.not_and left right).symm
  | or => exact (Bool.not_or left right).symm

end Logical

namespace Comparison

/-- The order that holds where another one does not. -/
inductive Opposite : Comparison → Comparison → Prop
  | greater : Opposite .greater .lessEqual
  | less : Opposite .less .greaterEqual

variable {order other : Comparison} (opposite : order.Opposite other)

include opposite

theorem Opposite.compareZeros (bound : Number) :
    Tolerance.compareZeros bound other =
      (do return !(← Tolerance.compareZeros bound order)) := by
  cases opposite <;> cases bound <;> rfl

theorem Opposite.compare {α : Type} (arithmetic : Arithmetic α) (bound : Number)
    (left right : α) :
    arithmetic.compare bound other left right =
      (do return !(← arithmetic.compare bound order left right)) := by
  cases opposite <;> rfl

end Comparison

/-! ## Truth values of expressions -/

namespace Expression

variable {α : Type}

/-- What a comparison of scalars finds. -/
def finding (arithmetic : Arithmetic α) (bound : Number) (operator : Comparison)
    (left right : α) : Except Fault Bool :=
  if arithmetic.isImaginary left && arithmetic.isImaginary right then
    Tolerance.compareZeros bound operator
  else arithmetic.compare bound operator (compared arithmetic left) (compared arithmetic right)

theorem finding_opposite {order other : Comparison} (opposite : order.Opposite other)
    (arithmetic : Arithmetic α) (bound : Number) (left right : α) :
    finding arithmetic bound other left right =
      (do return !(← finding arithmetic bound order left right)) := by
  unfold finding
  split
  case isTrue => exact opposite.compareZeros bound
  case isFalse => exact opposite.compare arithmetic bound _ _

/-- Whether a vector that is a scalar counts as true. -/
def isTrue (arithmetic : Arithmetic α) (test : α → Bool) (vector : List α) : Bool :=
  test (arithmetic.realPart (scalar arithmetic vector))

/-- A truth value as a vector. -/
def ofTruth (arithmetic : Arithmetic α) (flag : Bool) : List α := [arithmetic.truth [] flag]

section Laws

variable {arithmetic : Arithmetic α} {setting : Setting} {bound : Number} {test : α → Bool}
  (decided : arithmetic.DecidedBy bound test) (left right : Expression)

include decided

theorem isTrue_ofTruth (flag : Bool) : isTrue arithmetic test (ofTruth arithmetic flag) = flag :=
  decided.test_truth [] flag

theorem negateScalar_eq (value : α) :
    negateScalar arithmetic bound value =
      .ok (arithmetic.truth [] !test (arithmetic.realPart value)) := by
  rw [negateScalar, Arithmetic.negate, decided.exceeds]
  exact congrArg Except.ok (decided.truth_eq _ _)

theorem connectScalars_eq (operator : Logical) (first second : α) :
    connectScalars arithmetic bound operator first second =
      .ok (arithmetic.truth [] (operator.ofTruths (test (arithmetic.realPart first))
        (test (arithmetic.realPart second)))) := by
  rw [connectScalars, Arithmetic.connect, decided.exceeds, decided.exceeds]
  cases operator <;> exact congrArg Except.ok (decided.truth_eq _ _)

theorem compareScalars_eq (operator : Comparison) (first second : α) :
    compareScalars arithmetic bound operator first second =
      (do return arithmetic.truth [] (← finding arithmetic bound operator first second)) := by
  rw [compareScalars, finding]
  simp only [decided.truth_eq [_, _]]
  split <;> rfl

theorem value_not :
    left.not.value arithmetic setting bound = (do
      let vector ← left.value arithmetic setting bound
      return ofTruth arithmetic !isTrue arithmetic test vector) := by
  simp only [value, negateScalar_eq decided, Outcome.ok_bind]
  rfl

theorem value_logical (operator : Logical) :
    (left.logical operator right).value arithmetic setting bound = (do
      let first ← left.value arithmetic setting bound
      let second ← right.value arithmetic setting bound
      return ofTruth arithmetic
        (operator.ofTruths (isTrue arithmetic test first) (isTrue arithmetic test second))) := by
  simp only [value, connectScalars_eq decided, Outcome.ok_bind]
  rfl

theorem value_comparison (operator : Comparison) :
    (left.comparison operator right).value arithmetic setting bound = (do
      let first ← left.value arithmetic setting bound
      let second ← right.value arithmetic setting bound
      let flag ← finding arithmetic bound operator (scalar arithmetic first)
        (scalar arithmetic second)
      return ofTruth arithmetic flag) := by
  simp only [value, compareScalars_eq decided, bind_assoc, pure_bind]
  rfl

/-- A negation goes through a boolean operator and turns it into its dual. -/
theorem value_not_logical (operator : Logical) :
    (left.logical operator right).not.value arithmetic setting bound =
      (left.not.logical operator.dual right.not).value arithmetic setting bound := by
  simp only [value_not decided, value_logical decided, isTrue_ofTruth decided,
    operator.ofTruths_dual, bind_assoc, pure_bind]

/-- Two negations make a truth value of a scalar, as a conjunction with itself does. -/
theorem value_not_not :
    left.not.not.value arithmetic setting bound =
      (left.logical .and left).value arithmetic setting bound := by
  simp only [value_not decided, value_logical decided, isTrue_ofTruth decided, Bool.not_not,
    bind_assoc, pure_bind]
  cases left.value arithmetic setting bound with
  | error => rfl
  | ok vector => simp only [Outcome.ok_bind, Logical.ofTruths, Bool.and_self]

/-- A negated order is its opposite. -/
theorem value_not_comparison {order other : Comparison} (opposite : order.Opposite other) :
    (left.comparison order right).not.value arithmetic setting bound =
      (left.comparison other right).value arithmetic setting bound := by
  simp only [value_not decided, value_comparison decided, isTrue_ofTruth decided,
    finding_opposite opposite, bind_assoc, pure_bind]

/-- A negation of what has a value has a truth value. -/
theorem value_not_of_ok {vector : List α}
    (denotes : left.value arithmetic setting bound = .ok vector) :
    ∃ flag, left.not.value arithmetic setting bound = .ok (ofTruth arithmetic flag) := by
  rw [value_not decided, denotes]
  exact ⟨_, rfl⟩

end Laws

section Operands

variable {domain : Domain} {setting : Setting} {bound : Number} {left right : Expression}
  {first second : List domain.Scalar}

theorem exists_value_logical (tells : Tolerance.TellsTruth bound)
    (denotesLeft : left.value domain.arithmetic setting bound = .ok first)
    (denotesRight : right.value domain.arithmetic setting bound = .ok second)
    (operator : Logical) :
    ∃ vector, (left.logical operator right).value domain.arithmetic setting bound =
      .ok vector := by
  obtain ⟨_, decided⟩ := domain.exists_decidedBy tells
  rw [value_logical decided, denotesLeft, denotesRight]
  exact ⟨_, rfl⟩

theorem exists_finding (decides : bound.Decides) (operator : Comparison)
    (left right : domain.Scalar) :
    ∃ flag, finding domain.arithmetic bound operator left right = .ok flag := by
  unfold finding
  split
  case isTrue => exact Tolerance.exists_compareZeros decides operator
  case isFalse => exact domain.exists_compare decides operator _ _

theorem exists_value_comparison (tells : Tolerance.TellsTruth bound) (decides : bound.Decides)
    (denotesLeft : left.value domain.arithmetic setting bound = .ok first)
    (denotesRight : right.value domain.arithmetic setting bound = .ok second)
    (operator : Comparison) :
    ∃ vector, (left.comparison operator right).value domain.arithmetic setting bound =
      .ok vector := by
  obtain ⟨_, decided⟩ := domain.exists_decidedBy tells
  obtain ⟨flag, found⟩ := exists_finding decides operator
    (scalar domain.arithmetic first) (scalar domain.arithmetic second)
  rw [value_comparison decided, denotesLeft, denotesRight]
  simp only [Outcome.ok_bind, found]
  exact ⟨_, rfl⟩

end Operands

end Expression

/-! ## Evaluations that end alike -/

namespace Evaluation

variable (domain : Domain) {setting : Setting} {program other : Program}

/-- Runs that leave the same values, or fail for the same reason, are evaluated alike. -/
theorem evaluate_congr
    (same : (run domain.arithmetic setting program).result.map Machine.values =
      (run domain.arithmetic setting other).result.map Machine.values)
    (buffer : Option (List Number)) (width : Option Int) :
    (evaluate domain setting program buffer width).top =
        (evaluate domain setting other buffer width).top ∧
      (evaluate domain setting program buffer width).buffer =
        (evaluate domain setting other buffer width).buffer := by
  cases ran : (run domain.arithmetic setting program).result with
  | error cause =>
      cases ranOther : (run domain.arithmetic setting other).result with
      | error =>
          rw [ran, ranOther] at same
          cases same
          simp [evaluate, ran, ranOther]
      | ok =>
          rw [ran, ranOther] at same
          cases same
  | ok machine =>
      cases ranOther : (run domain.arithmetic setting other).result with
      | error =>
          rw [ran, ranOther] at same
          cases same
      | ok again =>
          rw [ran, ranOther] at same
          have values : machine.values = again.values := Except.ok.inj same
          have tops : machine.topValue = again.topValue := by
            rw [Machine.topValue, Machine.topValue, values]
          cases buffer with
          | none => simp [evaluate, ran, ranOther, tops]
          | some given =>
              simp only [evaluate, ran, ranOther, tops, values]
              split <;> exact ⟨rfl, rfl⟩

/-- Where a program is evaluated, its expression has a value. -/
theorem exists_value_of_top {bound : Number} (tolerance : setting.tolerance = some bound)
    {expression : Expression} (steps : program.steps = expression.code)
    (typed : expression.WellTyped)
    (returns : ∃ top, (evaluate domain setting program none none).top = .ok top) :
    ∃ vector, expression.value domain.arithmetic setting bound = .ok vector := by
  rw [← values_run domain.arithmetic tolerance steps typed]
  cases ran : (run domain.arithmetic setting program).result with
  | ok machine => exact ⟨machine.values, rfl⟩
  | error cause =>
      obtain ⟨top, returned⟩ := returns
      simp [evaluate, ran] at returned

/-- Where the expression of a program is a truth value, the truth value is returned. -/
theorem evaluate_ofTruth {bound : Number} (tolerance : setting.tolerance = some bound)
    {expression : Expression} (steps : program.steps = expression.code)
    (typed : expression.WellTyped) {flag : Bool}
    (denotes : expression.value domain.arithmetic setting bound =
      .ok (Expression.ofTruth domain.arithmetic flag)) :
    (evaluate domain setting program none none).top =
      .ok (domain.arithmetic.output (domain.arithmetic.truth [] flag)) := by
  rw [← values_run domain.arithmetic tolerance steps typed, Outcome.map_eq_ok_iff] at denotes
  obtain ⟨machine, ran, values⟩ := denotes
  simp [evaluate, ran, Machine.topValue, values, Expression.ofTruth, Except.map]

end Evaluation

/-! ## Laws of sources -/

/-- A text that compiles to a scalar. -/
structure ScalarSource (scope : Scope) where
  text : String
  compiled : Compiled
  compiles : compile scope (.text text) = .ok compiled
  scalar : compiled.resultType.width = 1

/-- Whether two programs cannot be told apart by evaluations under a tolerance, and whether they
return a truth value where some parts of them return anything and every comparison is possible. -/
structure Program.SameTruth (bound : Number) (parts : List Program) (program other : Program) :
    Prop where
  evaluate_eq : ∀ (domain : Domain) (setting : Setting), setting.tolerance = some bound →
    ∀ (buffer : Option (List Number)) (width : Option Int),
      (Evaluation.evaluate domain setting program buffer width).top =
          (Evaluation.evaluate domain setting other buffer width).top ∧
        (Evaluation.evaluate domain setting program buffer width).buffer =
          (Evaluation.evaluate domain setting other buffer width).buffer
  returns_truth : bound.Decides → ∀ (domain : Domain) (setting : Setting),
    setting.tolerance = some bound →
    (∀ part ∈ parts, ∃ top, (Evaluation.evaluate domain setting part none none).top = .ok top) →
    ∃ flag, (Evaluation.evaluate domain setting program none none).top =
      .ok (domain.arithmetic.output (domain.arithmetic.truth [] flag))

/-- Whether two texts compile to truth values that are the same. -/
def CompileToSameTruth (scope : Scope) (bound : Number) (parts : List Program)
    (text other : String) : Prop :=
  ∃ first second, compile scope (.text text) = .ok first ∧
    compile scope (.text other) = .ok second ∧ first.resultType = ⟨1, true, false⟩ ∧
    second.resultType = ⟨1, true, false⟩ ∧ first.program.SameTruth bound parts second.program

namespace CompileToSameTruth

variable {scope : Scope} {bound : Number} {parts : List Program} {text other : String}
  {operand again : Expression}

/-- Two texts of which one is read as a negation are the same truth values if they denote the same
values. -/
theorem of_values (tells : Tolerance.TellsTruth bound)
    (reads : ReadsScalar scope .expression text operand.not)
    (readsOther : ReadsScalar scope .expression other again)
    (truthValue : again.isBoolean = true) (real : again.isComplex = false)
    (same : ∀ {domain : Domain} {setting : Setting} {test : domain.Scalar → Bool},
      domain.arithmetic.DecidedBy bound test →
      operand.not.value domain.arithmetic setting bound =
        again.value domain.arithmetic setting bound)
    (denotes : bound.Decides → ∀ (domain : Domain) (setting : Setting),
      setting.tolerance = some bound →
      (∀ part ∈ parts, ∃ top, (Evaluation.evaluate domain setting part none none).top = .ok top) →
      ∃ vector, operand.value domain.arithmetic setting bound = .ok vector) :
    CompileToSameTruth scope bound parts text other := by
  obtain ⟨first, compiles, steps, resultType⟩ := reads.compiles
  obtain ⟨second, compilesOther, stepsOther, resultOther⟩ := readsOther.compiles
  rw [truthValue, real] at resultOther
  refine ⟨first, second, compiles, compilesOther, resultType, resultOther, ?_, ?_⟩
  · intro domain setting tolerance buffer width
    obtain ⟨_, decided⟩ := domain.exists_decidedBy tells
    refine Evaluation.evaluate_congr domain ?_ buffer width
    rw [Evaluation.values_run _ tolerance steps reads.typed,
      Evaluation.values_run _ tolerance stepsOther readsOther.typed]
    exact same decided
  · intro decides domain setting tolerance returns
    obtain ⟨_, decided⟩ := domain.exists_decidedBy tells
    obtain ⟨vector, denotesOperand⟩ := denotes decides domain setting tolerance returns
    obtain ⟨flag, denotesNot⟩ := Expression.value_not_of_ok decided operand denotesOperand
    exact ⟨flag, Evaluation.evaluate_ofTruth domain tolerance steps reads.typed denotesNot⟩

/-- The texts may be written differently. -/
theorem of_toList {shown shownOther : String}
    (same : CompileToSameTruth scope bound parts text other)
    (text_eq : shown.toList = text.toList) (other_eq : shownOther.toList = other.toList) :
    CompileToSameTruth scope bound parts shown shownOther := by
  rwa [String.toList_injective text_eq, String.toList_injective other_eq]

end CompileToSameTruth

namespace ScalarSource

/-- A text is the text of a source if it compiles to a scalar. -/
theorem exists_source {scope : Scope} {text : String}
    (checked : ((compile scope (.text text)).toOption.any fun compiled =>
      compiled.resultType.width == 1) = true) :
    ∃ source : ScalarSource scope, source.text = text := by
  cases compiles : compile scope (.text text) with
  | error failure =>
      rw [compiles] at checked
      cases checked
  | ok compiled =>
      rw [compiles] at checked
      exact ⟨⟨text, compiled, compiles, eq_of_beq checked⟩, rfl⟩

variable {scope : Scope} {bound : Number} (first second : ScalarSource scope)

/-- A source in parentheses is read at every level, as a scalar that has a value where the source
is evaluated. -/
theorem exists_operand (bound : Number) :
    ∃ expression, (∀ level, ReadsScalar scope level ("(" ++ first.text ++ ")") expression) ∧
      ∀ (domain : Domain) (setting : Setting), setting.tolerance = some bound →
        (∃ top, (Evaluation.evaluate domain setting first.compiled.program none none).top =
          .ok top) →
        ∃ vector, expression.value domain.arithmetic setting bound = .ok vector := by
  obtain ⟨expression, reads, steps⟩ := ReadsScalar.of_compile first.compiles first.scalar
  refine ⟨expression, fun level => reads.parenthesized nofun level, ?_⟩
  intro domain setting tolerance returns
  exact Evaluation.exists_value_of_top domain tolerance steps reads.typed returns

section Laws

variable (tells : Tolerance.TellsTruth bound)

include tells

/-- The negation of a boolean operator is its dual on the negations of its operands. -/
theorem sameTruth_not_logical (operator : Logical) :
    CompileToSameTruth scope bound [first.compiled.program, second.compiled.program]
      s!"not (({first.text}) {operator.opcode.text} ({second.text}))"
      s!"(not ({first.text})) {operator.dual.opcode.text} (not ({second.text}))" := by
  obtain ⟨left, readsLeft, denotesLeft⟩ := first.exists_operand bound
  obtain ⟨right, readsRight, denotesRight⟩ := second.exists_operand bound
  have joined := (readsLeft _).join (.logical operator) rfl (readsRight _)
  have negated := (joined.parenthesized nofun .negation).not.loosen .expression (by decide)
  have notLeft := (readsLeft _).not.parenthesized nofun .expression
  have notRight := (readsRight _).not.parenthesized nofun .negation
  have dual := notLeft.join (.logical operator.dual) rfl notRight
  refine (CompileToSameTruth.of_values tells negated dual rfl rfl
    (fun decided => Expression.value_not_logical decided left right operator) ?_).of_toList
    (by simp [toString, Grammar.Sign.text]) (by simp [toString, Grammar.Sign.text])
  intro _ domain setting tolerance returns
  obtain ⟨_, denotesFirst⟩ := denotesLeft domain setting tolerance (returns _ (.head _))
  obtain ⟨_, denotesSecond⟩ := denotesRight domain setting tolerance (returns _ (.tail _ (.head _)))
  exact Expression.exists_value_logical tells denotesFirst denotesSecond operator

/-- Two negations make a truth value, as a conjunction with itself does. -/
theorem sameTruth_not_not :
    CompileToSameTruth scope bound [first.compiled.program]
      s!"not not ({first.text})" s!"({first.text}) and ({first.text})" := by
  obtain ⟨left, reads, denotes⟩ := first.exists_operand bound
  have negated := (reads _).not.not.loosen .expression (by decide)
  have joined := (reads _).join (.logical .and) rfl (reads _)
  refine (CompileToSameTruth.of_values tells negated joined rfl rfl
    (fun decided => Expression.value_not_not decided left) ?_).of_toList
    (by simp [toString]) (by simp [toString, Grammar.Sign.text, Logical.opcode, Opcode.text])
  intro _ domain setting tolerance returns
  obtain ⟨_, decided⟩ := domain.exists_decidedBy tells
  obtain ⟨_, denotesFirst⟩ := denotes domain setting tolerance (returns _ (.head _))
  obtain ⟨_, denotesNot⟩ := Expression.value_not_of_ok decided left denotesFirst
  exact ⟨_, denotesNot⟩

/-- The negation of an order is its opposite. -/
theorem sameTruth_not_comparison {order other : Comparison} (opposite : order.Opposite other) :
    CompileToSameTruth scope bound [first.compiled.program, second.compiled.program]
      s!"not (({first.text}) {order.opcode.text} ({second.text}))"
      s!"({first.text}) {other.opcode.text} ({second.text})" := by
  obtain ⟨left, readsLeft, denotesLeft⟩ := first.exists_operand bound
  obtain ⟨right, readsRight, denotesRight⟩ := second.exists_operand bound
  have joined := (readsLeft _).join (.comparison order) rfl (readsRight _)
  have negated := (joined.parenthesized nofun .negation).not.loosen .expression (by decide)
  have reversed := ((readsLeft _).join (.comparison other) rfl (readsRight _)).loosen .expression
    (by decide)
  refine (CompileToSameTruth.of_values tells negated reversed rfl rfl
    (fun decided => Expression.value_not_comparison decided left right opposite) ?_).of_toList
    (by simp [toString, Grammar.Sign.text]) (by simp [toString, Grammar.Sign.text])
  intro decides domain setting tolerance returns
  obtain ⟨_, denotesFirst⟩ := denotesLeft domain setting tolerance (returns _ (.head _))
  obtain ⟨_, denotesSecond⟩ := denotesRight domain setting tolerance (returns _ (.tail _ (.head _)))
  exact Expression.exists_value_comparison tells decides denotesFirst denotesSecond order

end Laws

end ScalarSource

/-- The laws of logic for any two sources of scalars, under a tolerance for which one is true and
zero is not: the laws of De Morgan, the double negation, and the negations of the strict orders. -/
theorem logical_laws {scope : Scope} (first second : ScalarSource scope) {bound : Number}
    (tells : Tolerance.TellsTruth bound) :
    let both : List Program := [first.compiled.program, second.compiled.program]
    CompileToSameTruth scope bound both
        s!"not (({first.text}) and ({second.text}))"
        s!"(not ({first.text})) or (not ({second.text}))" ∧
      CompileToSameTruth scope bound both
        s!"not (({first.text}) or ({second.text}))"
        s!"(not ({first.text})) and (not ({second.text}))" ∧
      CompileToSameTruth scope bound [first.compiled.program]
        s!"not not ({first.text})" s!"({first.text}) and ({first.text})" ∧
      CompileToSameTruth scope bound both
        s!"not (({first.text}) > ({second.text}))" s!"({first.text}) <= ({second.text})" ∧
      CompileToSameTruth scope bound both
        s!"not (({first.text}) < ({second.text}))" s!"({first.text}) >= ({second.text})" := by
  refine ⟨?_, ?_, first.sameTruth_not_not tells, ?_, ?_⟩
  · exact (first.sameTruth_not_logical second tells .and).of_toList
      (by simp [toString, Logical.opcode, Opcode.text])
      (by simp [toString, Logical.opcode, Opcode.text, Logical.dual])
  · exact (first.sameTruth_not_logical second tells .or).of_toList
      (by simp [toString, Logical.opcode, Opcode.text])
      (by simp [toString, Logical.opcode, Opcode.text, Logical.dual])
  · exact (first.sameTruth_not_comparison second tells .greater).of_toList
      (by simp [toString, Comparison.opcode, Opcode.text])
      (by simp [toString, Comparison.opcode, Opcode.text])
  · exact (first.sameTruth_not_comparison second tells .less).of_toList
      (by simp [toString, Comparison.opcode, Opcode.text])
      (by simp [toString, Comparison.opcode, Opcode.text])

/-- The laws hold of a complex sum and a comparison with a cell, under the tolerance zero. -/
theorem logical_laws_plane :
    Tolerance.TellsTruth (.real 0) ∧ ∃ first second : ScalarSource planeScope,
      first.text = "x + I" ∧ second.text = "time > 0.5" ∧
      CompileToSameTruth planeScope (.real 0) [first.compiled.program, second.compiled.program]
        "not ((x + I) and (time > 0.5))" "(not (x + I)) or (not (time > 0.5))" ∧
      CompileToSameTruth planeScope (.real 0) [first.compiled.program, second.compiled.program]
        "not ((x + I) > (time > 0.5))" "(x + I) <= (time > 0.5)" := by
  have tells : Tolerance.TellsTruth (.real 0) := ⟨by rfl, by rfl⟩
  obtain ⟨first, firstText⟩ := ScalarSource.exists_source
    (show ((compile planeScope (.text "x + I")).toOption.any fun compiled =>
      compiled.resultType.width == 1) = true by decide +kernel)
  obtain ⟨second, secondText⟩ := ScalarSource.exists_source
    (show ((compile planeScope (.text "time > 0.5")).toOption.any fun compiled =>
      compiled.resultType.width == 1) = true by decide +kernel)
  obtain ⟨conjunction, _, _, order, _⟩ := logical_laws first second tells
  rw [firstText, secondText] at conjunction order
  exact ⟨tells, first, second, firstText, secondText, conjunction, order⟩

end Formulary
