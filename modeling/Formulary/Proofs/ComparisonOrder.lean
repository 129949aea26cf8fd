import Formulary.Proofs.Differences
import Formulary.Proofs.Dimensions
import Formulary.Proofs.EqualKeys
import Formulary.Proofs.KernelParts
import Formulary.Proofs.LogicalLaws

/-!
# The order that comparisons make

A formula that branches on a condition relies on the comparisons of two doubles to name one case out
of three: less, equal, greater. With a tolerance of zero or more they do, for doubles of any size.
The one exception is the same infinity on both sides. Its difference with itself is undefined, and
then none of the three holds, although neither is greater than the other. The orders with equality
are the negated strict orders without exception.

The statements are about sources, for evaluations and for kernels. What the operands are does not
matter, as long as they return doubles.
-/

namespace Formulary

open Binary64 (SameInfinity flush le_iff_unpack lt_iff_unpack lt_notANumber unpack_abs)
open Float.Model (UnpackedFloat)

/-- The difference of two doubles as a kernel compares it. The operands, the difference and what is
compared lose their subnormal parts one after the other. -/
def Binary64.flushedDifference (left right : Float) : Float :=
  flush (flush (flush left - flush right))

/-! ## Answers of the five comparisons -/

namespace Comparison

/-- What a comparison with a threshold finds of the difference of its operands and of the difference
the other way round. -/
def holds (threshold forward backward : Float) : Comparison → Bool
  | greater => threshold < forward
  | less => threshold < backward
  | greaterEqual => !decide (threshold < backward)
  | lessEqual => !decide (threshold < forward)
  | equal => forward.abs ≤ threshold

/-- The comparisons that shut each other out. -/
def alternatives : List Comparison := [less, equal, greater]

/-- Whether answers order two doubles. Exactly one case holds, or none at all if the doubles are the
same infinity. -/
structure Orders (left right : Float) (answer : Comparison → Bool) : Prop where
  greaterEqual_eq : answer greaterEqual = !answer less
  lessEqual_eq : answer lessEqual = !answer greater
  exactlyOne : ¬SameInfinity left right → alternatives.countP answer = 1
  equal_eq : ¬SameInfinity left right → answer equal = (answer greaterEqual && answer lessEqual)
  none : SameInfinity left right → alternatives.countP answer = 0

/-- Differences that are opposite numbers order two doubles, and undefined ones leave the same
infinity without an order. -/
theorem orders_holds {left right threshold forward backward : Float} (nonnegative : 0 ≤ threshold)
    (opposite : ¬SameInfinity left right → Binary64.Opposite forward backward)
    (undefined : SameInfinity left right → forward = Float.nan ∧ backward = Float.nan) :
    Orders left right (holds threshold forward backward) := by
  have exceeds : ∀ value : Float, decide (threshold < value) =
      UnpackedFloat.lt threshold.toModel.unpack value.toModel.unpack := by
    intro value
    rw [Bool.eq_iff_iff, decide_eq_true_iff, lt_iff_unpack]
  have near : decide (forward.abs ≤ threshold) =
      UnpackedFloat.le forward.toModel.unpack.abs threshold.toModel.unpack := by
    rw [Bool.eq_iff_iff, decide_eq_true_iff, le_iff_unpack, unpack_abs]
  have threeCases := fun apart : ¬SameInfinity left right =>
    (opposite apart).threeCases ((le_iff_unpack _ _).mp nonnegative)
  refine ⟨rfl, rfl, fun apart => ?_, fun apart => ?_, fun same => ?_⟩
  · obtain ⟨exclusive, exhaustive⟩ := threeCases apart
    simp only [alternatives, List.countP_cons, List.countP_nil, holds, exceeds, near, exhaustive]
    revert exclusive
    cases UnpackedFloat.lt threshold.toModel.unpack forward.toModel.unpack <;>
      cases UnpackedFloat.lt threshold.toModel.unpack backward.toModel.unpack <;> simp
  · simp only [holds, exceeds, near, (threeCases apart).exhaustive, Bool.and_comm]
  · obtain ⟨rfl, rfl⟩ := undefined same
    have within : UnpackedFloat.le Float.nan.toModel.unpack.abs threshold.toModel.unpack = false :=
      rfl
    simp only [alternatives, List.countP_cons, List.countP_nil, holds, exceeds, near, within]
    rw [show Float.nan.toModel.unpack = .notANumber from rfl, lt_notANumber]
    rfl

variable {left right threshold : Float} (nonnegative : 0 ≤ threshold)
  (leftDefined : left.isNaN = false) (rightDefined : right.isNaN = false)

include nonnegative leftDefined rightDefined

/-- The differences of two doubles order them. -/
theorem orders_sub : Orders left right (holds threshold (left - right) (right - left)) := by
  refine orders_holds nonnegative (Binary64.opposite_sub leftDefined rightDefined) fun same => ?_
  exact ⟨Binary64.sub_of_sameInfinity same, Binary64.sub_of_sameInfinity same.symm⟩

/-- The differences of two doubles order them also if subnormal numbers count as zeros. -/
theorem orders_flushedDifference : Orders left right (holds threshold
    (Binary64.flushedDifference left right) (Binary64.flushedDifference right left)) := by
  refine orders_holds nonnegative (fun apart => ?_) fun same => ?_
  · exact (Binary64.opposite_sub (Binary64.isNaN_flush leftDefined)
      (Binary64.isNaN_flush rightDefined)
      (mt Binary64.sameInfinity_flush_iff.mp apart)).flush.flush
  · have flushed := Binary64.sameInfinity_flush_iff.mpr same
    rw [Binary64.flushedDifference, Binary64.flushedDifference,
      Binary64.sub_of_sameInfinity flushed, Binary64.sub_of_sameInfinity flushed.symm,
      Binary64.flush_nan, Binary64.flush_nan]
    exact ⟨rfl, rfl⟩

end Comparison

/-- A comparison looks at nothing but the two differences. -/
theorem Arithmetic.compare_eq_holds {α : Type} {arithmetic : Arithmetic α} {bound : Number}
    {left right : α} {threshold forward backward : Float}
    (above : arithmetic.exceeds (arithmetic.sub left right) bound = .ok (threshold < forward))
    (below : arithmetic.exceeds (arithmetic.sub right left) bound = .ok (threshold < backward))
    (near : arithmetic.within (arithmetic.sub left right) bound = .ok (forward.abs ≤ threshold))
    (operator : Comparison) :
    arithmetic.compare bound operator left right =
      .ok (operator.holds threshold forward backward) := by
  cases operator with
  | greater => exact above
  | less => exact below
  | greaterEqual => rw [compare, below]; rfl
  | lessEqual => rw [compare, above]; rfl
  | equal => exact near

/-! ## Thresholds -/

namespace Tolerance

variable {bound : Number}

/-- A tolerance of zero or more is so as a double. -/
theorem nonneg_toFloat (nonnegative : isKeptByZero bound = .ok true) : 0 ≤ bound.toFloat := by
  cases bound with
  | int whole => exact Binary64.nonneg_ofInt (of_decide_eq_true (Except.ok.inj nonnegative))
  | real found => exact of_decide_eq_true (Except.ok.inj nonnegative)
  | complex => cases nonnegative

/-- The double of a whole number that is not too large. -/
theorem doubleOfInt_eq {whole : Int} (fits : (Number.int whole).isTooLarge = false) :
    doubleOfInt whole = .ok (Binary64.ofInt whole) := by
  simp only [Number.isTooLarge, Option.isNone_eq_false_iff, Option.isSome_iff_exists,
    Binary64.ofInt?] at fits
  obtain ⟨_, converted⟩ := fits
  split at converted
  case isTrue range => rw [doubleOfInt, Binary64.ofInt?, if_pos range]
  case isFalse => cases converted

section Decided

variable (decides : bound.Decides)

include decides

theorem isExceeded_eq (value : Float) : isExceeded value bound = .ok (bound.toFloat < value) := by
  cases bound with
  | int whole => rw [isExceeded, doubleOfInt_eq decides.1]; rfl
  | real => rfl
  | complex => cases decides.2

theorem isKept_eq (value : Float) : isKept value bound = .ok (value ≤ bound.toFloat) := by
  cases bound with
  | int whole => rw [isKept, doubleOfInt_eq decides.1]; rfl
  | real => rfl
  | complex => cases decides.2

end Decided

/-- The double with which kernels compare. A whole number is not asked whether it is subnormal. -/
def flushedThreshold : Number → Float
  | .real bound => flush bound
  | bound => bound.toFloat

section Flushed

variable (nonnegative : isKeptByZero bound = .ok true)

include nonnegative

theorem nonneg_flushedThreshold : 0 ≤ flushedThreshold bound := by
  have whole := nonneg_toFloat nonnegative
  cases bound with
  | real found => exact Binary64.nonneg_flush whole
  | _ => exact whole

variable (narrow : bound.isWide = false)

include narrow

theorem isExceeded_flushed (value : Float) :
    Arithmetic.Flushed.isExceeded value bound = .ok (flushedThreshold bound < flush value) := by
  cases bound with
  | int whole =>
      have indexed : whole.toInt64.toInt = whole := by simpa [Number.isWide] using narrow
      rw [Arithmetic.Flushed.isExceeded, if_pos indexed]
      rfl
  | real => rfl
  | complex => cases nonnegative

theorem isKept_flushed (value : Float) :
    Arithmetic.Flushed.isKept value bound = .ok (flush value ≤ flushedThreshold bound) := by
  cases bound with
  | int whole =>
      have indexed : whole.toInt64.toInt = whole := by simpa [Number.isWide] using narrow
      rw [Arithmetic.Flushed.isKept, if_pos indexed]
      rfl
  | real => rfl
  | complex => cases nonnegative

end Flushed

end Tolerance

/-! ## Comparisons of doubles -/

/-- Whether a number is a double, with an imaginary part of zero where there is one. -/
def Number.IsDouble (value : Float) : Number → Prop
  | int _ => False
  | real found => found = value
  | complex found => found.re = value ∧ (found.im == 0) = true

namespace Domain

variable (domain : Domain) {bound : Number}

/-- The scalar of a double. -/
def ofDouble : (domain : Domain) → Float → domain.Scalar
  | real => id
  | complex => Cartesian.ofReal

/-- Comparisons of doubles are about the two differences. -/
theorem compare_ofDouble (decides : bound.Decides) (operator : Comparison) (left right : Float) :
    domain.arithmetic.compare bound operator (domain.ofDouble left) (domain.ofDouble right) =
      .ok (operator.holds bound.toFloat (left - right) (right - left)) := by
  have exceeds := Tolerance.isExceeded_eq decides
  have keeps := Tolerance.isKept_eq decides (left - right).abs
  cases domain <;> exact Arithmetic.compare_eq_holds (exceeds _) (exceeds _) keeps operator

/-- In a kernel they are about the two differences without subnormal parts. -/
theorem flushedCompare_ofDouble (nonnegative : Tolerance.isKeptByZero bound = .ok true)
    (narrow : bound.isWide = false) (operator : Comparison) (left right : Float) :
    domain.flushedArithmetic.compare bound operator (domain.ofDouble left)
        (domain.ofDouble right) =
      .ok (operator.holds (Tolerance.flushedThreshold bound)
        (Binary64.flushedDifference left right) (Binary64.flushedDifference right left)) := by
  have exceeds := Tolerance.isExceeded_flushed nonnegative narrow
  have keeps : Arithmetic.Flushed.isKept (flush (flush left - flush right)).abs bound =
      .ok ((Binary64.flushedDifference left right).abs ≤ Tolerance.flushedThreshold bound) := by
    rw [Tolerance.isKept_flushed nonnegative narrow]
    exact congrArg Except.ok (decide_eq_decide.mpr (Binary64.flush_abs_le_iff _ _))
  cases domain <;> exact Arithmetic.compare_eq_holds (exceeds _) (exceeds _) keeps operator

theorem truth_eq (values : List domain.Scalar) (flag : Bool) :
    domain.arithmetic.truth values flag = domain.arithmetic.truth [] flag := by
  cases domain <;> rfl

theorem flushedTruth_eq (values : List domain.Scalar) (flag : Bool) :
    domain.flushedArithmetic.truth values flag = domain.flushedArithmetic.truth [] flag := by
  cases domain <;> rfl

variable {domain} {first second : domain.Scalar} {left right : Float}

/-- A comparison takes a scalar that is a double for the double. -/
theorem compared_of_isDouble (double : (domain.arithmetic.output first).IsDouble left) :
    domain.arithmetic.isImaginary first = false ∧
      domain.arithmetic.realPart first = domain.ofDouble left := by
  cases domain with
  | real => exact ⟨rfl, double⟩
  | complex =>
      obtain ⟨rfl, zero⟩ := double
      exact ⟨(Bool.not_eq_false' ..).mpr zero, rfl⟩

theorem flushedCompared_of_isDouble
    (double : (domain.flushedArithmetic.output first).IsDouble left) :
    domain.flushedArithmetic.isImaginary first = false ∧
      domain.flushedArithmetic.realPart first = domain.ofDouble left := by
  cases domain with
  | real => exact ⟨rfl, double⟩
  | complex =>
      obtain ⟨rfl, zero⟩ := double
      have flushed := Binary64.flush_congr_of_beq zero
      rw [Number.flush_zero] at flushed
      exact ⟨(Bool.not_eq_false' ..).mpr flushed, rfl⟩

/-- What a comparison of two doubles finds. -/
theorem finding_of_isDouble (decides : bound.Decides) (operator : Comparison)
    (firstDouble : (domain.arithmetic.output first).IsDouble left)
    (secondDouble : (domain.arithmetic.output second).IsDouble right) :
    Expression.finding domain.arithmetic bound operator first second =
      .ok (operator.holds bound.toFloat (left - right) (right - left)) := by
  obtain ⟨firstReal, firstPart⟩ := compared_of_isDouble firstDouble
  obtain ⟨secondReal, secondPart⟩ := compared_of_isDouble secondDouble
  simp only [Expression.finding, Expression.compared, firstReal, secondReal, Bool.false_and,
    Bool.false_eq_true, if_false, firstPart, secondPart]
  exact domain.compare_ofDouble decides operator left right

end Domain

namespace Kernel

/-- The operand of a comparison that is a double is the double. -/
theorem comparedOperand_of_isDouble {domain : Domain} {value : domain.Scalar} {double : Float}
    (isDouble : (domain.flushedArithmetic.output value).IsDouble double) :
    (comparedOperand domain.flushedArithmetic value).result = .ok (domain.ofDouble double) := by
  obtain ⟨real, part⟩ := Domain.flushedCompared_of_isDouble isDouble
  rw [comparedOperand, real, part]
  rfl

/-- What a comparison of two doubles leaves in a kernel. -/
theorem binary_comparison {domain : Domain} {bound : Number} {left right : Float}
    {first second : domain.Scalar} (nonnegative : Tolerance.isKeptByZero bound = .ok true)
    (narrow : bound.isWide = false) (operator : Comparison)
    (firstDouble : (domain.flushedArithmetic.output first).IsDouble left)
    (secondDouble : (domain.flushedArithmetic.output second).IsDouble right) :
    (binary domain.flushedArithmetic bound (.comparison operator) first second).result =
      .ok (domain.flushedArithmetic.truth [first, second] (operator.holds
        (Tolerance.flushedThreshold bound) (Binary64.flushedDifference left right)
        (Binary64.flushedDifference right left))) := by
  have found := domain.flushedCompare_ofDouble nonnegative narrow operator left right
  refine Logged.result_bind_eq_ok_iff.mpr ⟨_, comparedOperand_of_isDouble firstDouble, ?_⟩
  refine Logged.result_bind_eq_ok_iff.mpr ⟨_, comparedOperand_of_isDouble secondDouble, ?_⟩
  exact Logged.result_bind_eq_ok_iff.mpr ⟨_, found, rfl⟩

end Kernel

/-! ## Sources -/

/-- Whether evaluations of comparisons give answers wherever evaluations of their operands return
two doubles. -/
def Evaluation.Answers (bound : Number) (first second : Program)
    (comparisons : Comparison → Program) (left right : Float) (answer : Comparison → Bool) :
    Prop :=
  ∀ (domain : Domain) (setting : Setting), setting.tolerance = some bound →
    (∃ number, (evaluate domain setting first none none).top = .ok number ∧
      number.IsDouble left) →
    (∃ number, (evaluate domain setting second none none).top = .ok number ∧
      number.IsDouble right) →
    ∀ operator, (evaluate domain setting (comparisons operator) none none).top =
      .ok (domain.arithmetic.output (domain.arithmetic.truth [] (answer operator)))

/-- Whether kernels of comparisons give answers wherever kernels of their operands return two
doubles. -/
def Kernel.Answers (bound : Number) (first second : Program) (comparisons : Comparison → Program)
    (left right : Float) (answer : Comparison → Bool) : Prop :=
  ∀ (domain : Domain) (store : Store) (inputs : List Number),
    (∃ number, (evaluate ⟨first, domain, bound⟩ store inputs).result = .ok (.scalar number) ∧
      number.IsDouble left) →
    (∃ number, (evaluate ⟨second, domain, bound⟩ store inputs).result = .ok (.scalar number) ∧
      number.IsDouble right) →
    ∀ operator, (evaluate ⟨comparisons operator, domain, bound⟩ store inputs).result =
      .ok (.scalar
        (domain.flushedArithmetic.output (domain.flushedArithmetic.truth [] (answer operator))))

/-- A comparison of two scalars is the truth value of what it finds. -/
theorem Expression.value_comparison_of_finding {domain : Domain} {setting : Setting}
    {bound : Number} {former latter : Expression} {first second : domain.Scalar} {flag : Bool}
    {operator : Comparison}
    (denotesFirst : former.value domain.arithmetic setting bound = .ok [first])
    (denotesSecond : latter.value domain.arithmetic setting bound = .ok [second])
    (found : finding domain.arithmetic bound operator first second = .ok flag) :
    (former.comparison operator latter).value domain.arithmetic setting bound =
      .ok (ofTruth domain.arithmetic flag) := by
  have compared : compareScalars domain.arithmetic bound operator first second =
      (finding domain.arithmetic bound operator first second).map fun flag =>
        domain.arithmetic.truth [first, second] flag := by
    rw [compareScalars, finding]
    split <;> rfl
  rw [found] at compared
  simp only [value, denotesFirst, denotesSecond, Outcome.ok_bind, scalar, List.headD_cons, compared]
  exact congrArg (fun value => Except.ok [value]) (domain.truth_eq _ flag)

/-- Where a program is evaluated, its expression has the scalar that is returned, if it has one
value. -/
theorem Evaluation.exists_scalar_of_top {domain : Domain} {setting : Setting} {bound : Number}
    (tolerance : setting.tolerance = some bound) {program : Program} {expression : Expression}
    (steps : program.steps = expression.code) (typed : expression.WellTyped)
    (single : expression.width = 1) {top : Number}
    (returns : (evaluate domain setting program none none).top = .ok top) :
    ∃ value, expression.value domain.arithmetic setting bound = .ok [value] ∧
      domain.arithmetic.output value = top := by
  obtain ⟨vector, denotes⟩ := exists_value_of_top domain tolerance steps typed ⟨top, returns⟩
  obtain ⟨value, rfl⟩ :=
    List.length_eq_one_iff.mp ((Expression.length_value denotes).trans single)
  refine ⟨value, denotes, ?_⟩
  rw [← values_run domain.arithmetic tolerance steps typed, Outcome.map_eq_ok_iff] at denotes
  obtain ⟨machine, ran, values⟩ := denotes
  simpa [evaluate, ran, Machine.topValue, values, Except.map] using returns

/-- A program with a scalar result leaves one value. -/
theorem height_of_scalar {scope : Scope} {source : Source} {compiled : Compiled}
    (compiles : compile scope source = .ok compiled) (scalar : compiled.resultType.width = 1) :
    compiled.program.shape.height = 1 := by
  obtain ⟨width, _, _⟩ := shape_of_compile compiles
  rw [scalar] at width
  omega

namespace ScalarSource

variable {scope : Scope} (first second : ScalarSource scope)

/-- Two sources in parentheses with a comparison between them compile to the programs of both and
the comparison. -/
theorem exists_comparison (operator : Comparison) :
    ∃ compiled,
      compile scope (.text s!"({first.text}) {operator.opcode.text} ({second.text})") =
        .ok compiled ∧
      compiled.resultType = ⟨1, true, false⟩ ∧
      compiled.program.steps = first.compiled.program.steps ++ second.compiled.program.steps ++
        [.operator (.comparison operator)] := by
  obtain ⟨left, readsLeft, leftSteps⟩ := ReadsScalar.of_compile first.compiles first.scalar
  obtain ⟨right, readsRight, rightSteps⟩ := ReadsScalar.of_compile second.compiles second.scalar
  have joined := ((readsLeft.parenthesized nofun _).join (.comparison operator) rfl
    (readsRight.parenthesized nofun _)).loosen .expression (by decide)
  obtain ⟨compiled, compiles, steps, resultType⟩ := joined.compiles
  have shown : s!"({first.text}) {operator.opcode.text} ({second.text})" =
      "(" ++ first.text ++ ")" ++ (" " ++ (Grammar.Sign.comparison operator).text ++ " ") ++
        ("(" ++ second.text ++ ")") :=
    String.toList_injective (by simp [toString, Grammar.Sign.text])
  refine ⟨compiled, shown ▸ compiles, resultType, ?_⟩
  rw [steps, leftSteps, rightSteps]
  rfl

variable {bound : Number} {comparisons : Comparison → Program}
  (steps : ∀ operator, (comparisons operator).steps = first.compiled.program.steps ++
    second.compiled.program.steps ++ [.operator (.comparison operator)])

include steps

/-- Evaluations of comparisons answer as the differences of the doubles tell. -/
theorem evaluation_answers (decides : bound.Decides) (left right : Float) :
    Evaluation.Answers bound first.compiled.program second.compiled.program comparisons left right
      (Comparison.holds bound.toFloat (left - right) (right - left)) := by
  rintro domain setting tolerance ⟨_, returnsFirst, leftDouble⟩ ⟨_, returnsSecond, rightDouble⟩
    operator
  obtain ⟨former, readsFormer, formerSteps⟩ := ReadsScalar.of_compile first.compiles first.scalar
  obtain ⟨latter, readsLatter, latterSteps⟩ := ReadsScalar.of_compile second.compiles second.scalar
  obtain ⟨value, denotes, rfl⟩ := Evaluation.exists_scalar_of_top tolerance formerSteps
    readsFormer.typed readsFormer.width returnsFirst
  obtain ⟨other, denotesOther, rfl⟩ := Evaluation.exists_scalar_of_top tolerance latterSteps
    readsLatter.typed readsLatter.width returnsSecond
  have denotesTruth := Expression.value_comparison_of_finding denotes denotesOther
    (Domain.finding_of_isDouble decides operator leftDouble rightDouble)
  have code : (comparisons operator).steps = (former.comparison operator latter).code := by
    rw [steps, formerSteps, latterSteps]
    rfl
  exact Evaluation.evaluate_ofTruth domain tolerance code
    ⟨readsFormer.typed, readsLatter.typed, readsFormer.width, readsLatter.width⟩ denotesTruth

/-- Kernels of comparisons answer as the differences of the doubles tell, without their subnormal
parts. -/
theorem kernel_answers (nonnegative : Tolerance.isKeptByZero bound = .ok true)
    (narrow : bound.isWide = false) (single : ∀ operator, (comparisons operator).shape.height = 1)
    (left right : Float) :
    Kernel.Answers bound first.compiled.program second.compiled.program comparisons left right
      (Comparison.holds (Tolerance.flushedThreshold bound)
        (Binary64.flushedDifference left right) (Binary64.flushedDifference right left)) := by
  rintro domain store inputs ⟨_, returnsFirst, leftDouble⟩ ⟨_, returnsSecond, rightDouble⟩ operator
  obtain ⟨_, _, firstRegular⟩ := shape_of_compile first.compiles
  obtain ⟨_, _, secondRegular⟩ := shape_of_compile second.compiles
  have firstSingle := height_of_scalar first.compiles first.scalar
  have secondSingle := height_of_scalar second.compiles second.scalar
  have secondBalanced := fun step member => (secondRegular step member).balanced
  obtain ⟨value, leaves, same⟩ := Kernel.exists_leaves
    (fun step member => (firstRegular step member).balanced) firstSingle returnsFirst
  obtain ⟨other, leavesOther, sameOther⟩ := Kernel.exists_leaves secondBalanced secondSingle
    returnsSecond
  cases same
  cases sameOther
  have computed := Kernel.binary_comparison nonnegative narrow operator leftDouble rightDouble
  have leavesTruth := Kernel.leaves_of_parts (show Operator.comparison operator ≠ .not from nofun)
    (steps operator) secondBalanced leaves leavesOther computed
  rw [leavesTruth.evaluate_eq (single operator), Domain.flushedTruth_eq]

end ScalarSource

/-- The five comparisons of two scalars compile to truth values. Under any tolerance of zero or more
that can be used, these are what the tolerance finds of the differences of the two doubles that the
scalars return, and they order the doubles, infinite ones among them: exactly one of less, equal and
greater holds, unless both are the same infinity. -/
theorem comparisons_order {scope : Scope} (first second : ScalarSource scope) :
    ∃ compiled : Comparison → Compiled,
      (∀ operator,
        compile scope (.text s!"({first.text}) {operator.opcode.text} ({second.text})") =
            .ok (compiled operator) ∧
          (compiled operator).resultType = ⟨1, true, false⟩) ∧
      ∀ bound : Number, Tolerance.isKeptByZero bound = .ok true →
        ∀ left right : Float, left.isNaN = false → right.isNaN = false →
          (bound.Decides →
            let answer := Comparison.holds bound.toFloat (left - right) (right - left)
            Comparison.Orders left right answer ∧
              Evaluation.Answers bound first.compiled.program second.compiled.program
                (fun operator => (compiled operator).program) left right answer) ∧
          (bound.isWide = false →
            let answer := Comparison.holds (Tolerance.flushedThreshold bound)
              (Binary64.flushedDifference left right) (Binary64.flushedDifference right left)
            Comparison.Orders left right answer ∧
              Kernel.Answers bound first.compiled.program second.compiled.program
                (fun operator => (compiled operator).program) left right answer) := by
  choose compiled compiles resultType steps using first.exists_comparison second
  refine ⟨compiled, fun operator => ⟨compiles operator, resultType operator⟩, ?_⟩
  intro bound nonnegative left right leftDefined rightDefined
  refine ⟨fun decides => ⟨?_, ?_⟩, fun narrow => ⟨?_, ?_⟩⟩
  · exact Comparison.orders_sub (Tolerance.nonneg_toFloat nonnegative) leftDefined rightDefined
  · exact first.evaluation_answers second steps decides left right
  · exact Comparison.orders_flushedDifference (Tolerance.nonneg_flushedThreshold nonnegative)
      leftDefined rightDefined
  · refine first.kernel_answers second steps nonnegative narrow (fun operator => ?_) left right
    exact height_of_scalar (compiles operator) (congrArg ResultType.width (resultType operator))

/-! ### Comparisons of two arguments -/

/-- Whether a number is a double with given bits. -/
def Number.hasBits (double : Float) : Number → Bool
  | real found => found.toBits == double.toBits
  | _ => false

theorem Number.isDouble_of_hasBits {double : Float} {number : Number}
    (same : number.hasBits double = true) : number.IsDouble double := by
  cases number with
  | real found => exact Float.toBits_inj.mp (eq_of_beq same)
  | _ => cases same

/-- The setting of a point in the plane. -/
def planeSetting (across up bound : Number) : Setting := ⟨[across, up], fun _ => .int 0, some bound⟩

/-- A text is a source of a double if it compiles to a scalar, and an evaluation and a kernel both
end with the bits of the double. -/
theorem ScalarSource.exists_double (text : String) (across up bound : Number) (double : Float)
    (checked : ((compile planeScope (.text text)).toOption.any fun compiled =>
      compiled.resultType.width == 1 &&
        (Evaluation.evaluate .real (planeSetting across up bound) compiled.program none
          none).top.toOption.any (Number.hasBits double) &&
        (Kernel.evaluate ⟨compiled.program, .real, bound⟩ (fun _ => .int 0)
          [across, up]).result.toOption.any
            fun | .scalar number => number.hasBits double | .vector _ => false) = true) :
    ∃ source : ScalarSource planeScope, source.text = text ∧
      (∃ number, (Evaluation.evaluate .real (planeSetting across up bound) source.compiled.program
        none none).top = .ok number ∧ number.IsDouble double) ∧
      ∃ number, (Kernel.evaluate ⟨source.compiled.program, .real, bound⟩ (fun _ => .int 0)
        [across, up]).result = .ok (.scalar number) ∧ number.IsDouble double := by
  cases compiles : compile planeScope (.text text) with
  | error failure =>
      rw [compiles] at checked
      cases checked
  | ok compiled =>
      rw [compiles] at checked
      simp only [Except.toOption, Option.any_some, Bool.and_eq_true] at checked
      obtain ⟨⟨single, evaluated⟩, ran⟩ := checked
      refine ⟨⟨text, compiled, compiles, eq_of_beq single⟩, rfl, ?_, ?_⟩
      · split at evaluated
        case h_1 number returned => exact ⟨number, returned, Number.isDouble_of_hasBits evaluated⟩
        case h_2 => cases evaluated
      · split at ran
        case h_1 output returned =>
            cases output with
            | scalar number => exact ⟨number, returned, Number.isDouble_of_hasBits ran⟩
            | vector => cases ran
        case h_2 => cases ran

/-- The text of a comparison of the two arguments. -/
theorem ScalarSource.text_comparison {first second : ScalarSource planeScope}
    (firstText : first.text = "x") (secondText : second.text = "y") (operator : Comparison) :
    s!"({first.text}) {operator.opcode.text} ({second.text})" =
      "(x) " ++ operator.opcode.text ++ " (y)" := by
  rw [firstText, secondText]
  exact String.toList_injective (by simp [toString])

/-- An infinity and one are ordered under a tolerance of one, which is a whole number here: the
infinity is greater. -/
theorem comparisons_order_plane :
    ∃ compiled : Comparison → Compiled, ∀ operator,
      compile planeScope (.text ("(x) " ++ operator.opcode.text ++ " (y)")) =
          .ok (compiled operator) ∧
        (Evaluation.evaluate .real (planeSetting (.real Binary64.infinity) (.int 1) (.int 1))
          (compiled operator).program none none).top =
            .ok (.real (if operator ∈ [.greater, .greaterEqual] then 1 else 0)) ∧
        (Kernel.evaluate ⟨(compiled operator).program, .real, .int 1⟩ (fun _ => .int 0)
          [.real Binary64.infinity, .int 1]).result =
            .ok (.scalar (.real (if operator ∈ [.greater, .greaterEqual] then 1 else 0))) := by
  obtain ⟨first, firstText, evaluated, ran⟩ := ScalarSource.exists_double "x"
    (.real Binary64.infinity) (.int 1) (.int 1) Binary64.infinity (by decide +kernel)
  obtain ⟨second, secondText, evaluatedAgain, ranAgain⟩ := ScalarSource.exists_double "y"
    (.real Binary64.infinity) (.int 1) (.int 1) 1 (by decide +kernel)
  obtain ⟨compiled, compiles, orders⟩ := comparisons_order first second
  obtain ⟨evaluations, kernels⟩ := orders (.int 1) rfl Binary64.infinity 1 (by decide) (by decide)
  have answers := (evaluations ⟨by decide, rfl⟩).2 .real _ rfl evaluated evaluatedAgain
  have finds := (kernels (by decide)).2 .real _ _ ran ranAgain
  refine ⟨compiled, fun operator => ⟨?_, (answers operator).trans ?_, (finds operator).trans ?_⟩⟩
  · rw [← ScalarSource.text_comparison firstText secondText]
    exact (compiles operator).1
  · have found : operator.holds (Number.int 1).toFloat (Binary64.infinity - 1)
        (1 - Binary64.infinity) = decide (operator ∈ [.greater, .greaterEqual]) := by
      cases operator <;> decide +kernel
    rw [found]
    cases operator <;> rfl
  · have found : operator.holds (Tolerance.flushedThreshold (.int 1))
        (Binary64.flushedDifference Binary64.infinity 1)
        (Binary64.flushedDifference 1 Binary64.infinity) =
          decide (operator ∈ [.greater, .greaterEqual]) := by
      cases operator <;> decide +kernel
    rw [found]
    cases operator <;> rfl

/-- No case holds of an infinity and itself, even under a tolerance of zero, while both orders with
equality do. -/
theorem no_comparison_of_infinities :
    Binary64.infinity.isNaN = false ∧ Tolerance.isKeptByZero (.real 0) = .ok true ∧
      ∃ compiled : Comparison → Compiled,
        (∀ operator, compile planeScope (.text ("(x) " ++ operator.opcode.text ++ " (y)")) =
          .ok (compiled operator)) ∧
        ∀ operator, (Evaluation.evaluate .real
          (planeSetting (.real Binary64.infinity) (.real Binary64.infinity) (.real 0))
          (compiled operator).program none none).top =
            .ok (.real (if operator ∈ Comparison.alternatives then 0 else 1)) := by
  obtain ⟨first, firstText, evaluated, _⟩ := ScalarSource.exists_double "x"
    (.real Binary64.infinity) (.real Binary64.infinity) (.real 0) Binary64.infinity
    (by decide +kernel)
  obtain ⟨second, secondText, evaluatedAgain, _⟩ := ScalarSource.exists_double "y"
    (.real Binary64.infinity) (.real Binary64.infinity) (.real 0) Binary64.infinity
    (by decide +kernel)
  choose compiled compiles resultType steps using first.exists_comparison second
  have answers := first.evaluation_answers second steps ⟨rfl, rfl⟩
    Binary64.infinity Binary64.infinity .real _ rfl evaluated evaluatedAgain
  refine ⟨by decide, by rfl, compiled, fun operator => ?_, fun operator => ?_⟩
  · rw [← ScalarSource.text_comparison firstText secondText]
    exact compiles operator
  · have undecided : operator.holds 0 (Binary64.infinity - Binary64.infinity)
        (Binary64.infinity - Binary64.infinity) = decide (operator ∉ Comparison.alternatives) := by
      cases operator <;> decide
    rw [answers operator, show (Number.real 0).toFloat = 0 from rfl, undecided]
    cases operator <;> rfl

end Formulary
