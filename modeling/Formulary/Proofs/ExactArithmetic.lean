import Formulary.Proofs.Doubles
import Formulary.Proofs.Rereading

/-!
# Exact arithmetic

In the complex domain every operation rounds. Exact arithmetic does not: its scalars are the complex
numbers, a constant stands for the exact value of its doubles, and the builtin functions may be any
functions. It tells what a formula means up to rounding and to the signs of zeros.

What the text of a formula is read as has the value of the formula in exact arithmetic, except for
quotients by an imaginary constant. Such a quotient is read as a product with the imaginary unit of
the quotient by the imaginary part, which is the opposite of what was written.
-/

namespace Formulary

/-! ## Exact values -/

/-- The number that the parts of a finite double stand for. -/
def Binary64.Finite.value (parts : Binary64.Finite) : ℚ :=
  if parts.negative then -parts.magnitude else parts.magnitude

/-- The exact value of a double; an infinity or a NaN has none. -/
noncomputable def Binary64.exactValue? (value : Float) : Option ℝ :=
  (decode? value).map fun parts => (parts.value : ℝ)

/-- The exact value of a number. -/
noncomputable def Number.exactValue? : Number → Option ℂ
  | int value => some value
  | real value => (Binary64.exactValue? value).map Complex.ofReal
  | complex value => do return ⟨← Binary64.exactValue? value.re, ← Binary64.exactValue? value.im⟩

namespace Arithmetic

/-- The exact value of a number as a scalar. -/
noncomputable def exactScalar (number : Number) : Except Fault ℂ :=
  match number.exactValue? with
  | some value => .ok value
  | none => .error .tooLarge

/-- Exact arithmetic on complex numbers, for some builtin functions and some way to hand out scalars
as numbers. -/
noncomputable def exact (functions : Builtin → List ℂ → ℂ) (output : ℂ → Number) :
    Arithmetic ℂ where
  zero := 0
  truth _ flag := if flag then 1 else 0
  add left right := left + right
  sub left right := left - right
  mul left right := left * right
  div left right := left / right
  neg value := -value
  call := functions
  isImaginary value := decide (value.im ≠ 0)
  realPart value := value.re
  isNegative value := decide (value.re < 0)
  exceeds value tolerance := do
    let bound ← exactScalar tolerance
    return decide (bound.re < value.re ∨ value.re = bound.re ∧ bound.im < 0)
  within value tolerance := do
    let bound ← exactScalar tolerance
    return decide (|value.re| < bound.re ∨ |value.re| = bound.re ∧ 0 ≤ bound.im)
  input := exactScalar
  stored number := (exactScalar number).map fun value => (value, false)
  output := output

end Arithmetic

namespace Binary64

theorem exactValue?_of_isUnsigned {value : Float}
    (unsigned : (Number.real value).isUnsigned = true) :
    ∃ exact, exactValue? value = some exact := by
  obtain ⟨_, parts, same, decoded, _⟩ := Number.isUnsigned_iff.mp unsigned
  cases same
  exact ⟨parts.value, by rw [exactValue?, decoded]; rfl⟩

theorem exactValue?_zero : exactValue? 0 = some 0 := by
  have decoded : decode? 0 = some ⟨false, 0, -1074⟩ := by decide
  simp [exactValue?, decoded, Finite.value, Finite.magnitude]

theorem exactValue?_one : exactValue? 1 = some 1 := by
  have decoded : decode? 1 = some ⟨false, 2 ^ 52, -52⟩ := by decide
  have whole : (⟨false, 2 ^ 52, -52⟩ : Finite).value = 1 := by
    norm_num [Finite.value, Finite.magnitude]
  rw [exactValue?, decoded, Option.map_some, whole, Rat.cast_one]

/-- A double that is equal to zero stands for zero. -/
theorem exactValue?_of_beq_zero {value : Float} (zero : (value == 0) = true) :
    exactValue? value = some 0 := by
  obtain ⟨_, _, rfl | ⟨_, other⟩ | ⟨rfl, _⟩⟩ := Float.beq_iff_ne_nan_and_eq.mp zero
  · exact exactValue?_zero
  · exact absurd other (by decide)
  · have decoded : decode? (-0) = some ⟨true, 0, -1074⟩ := by decide
    simp [exactValue?, decoded, Finite.value, Finite.magnitude]

end Binary64

namespace Expression

/-- An expression in which every quotient by an imaginary constant is the opposite of what it
was. -/
def turned : Expression → Expression
  | call function operand => call function operand.turned
  | concat left right => concat left.turned right.turned
  | negate operand => negate operand.turned
  | not operand => not operand.turned
  | logical operator left right => logical operator left.turned right.turned
  | comparison operator left right => comparison operator left.turned right.turned
  | sum sign left right => sum sign left.turned right.turned
  | product left right => product left.turned right.turned
  | quotient left right =>
    if right.imaginary?.isSome then negate (quotient left.turned right.turned)
    else quotient left.turned right.turned
  | leaf => leaf

/-- Whether a quotient in an expression is by an imaginary constant. -/
def dividesByImaginary : Expression → Bool
  | call _ operand => operand.dividesByImaginary
  | concat left right => left.dividesByImaginary || right.dividesByImaginary
  | negate operand => operand.dividesByImaginary
  | not operand => operand.dividesByImaginary
  | logical _ left right => left.dividesByImaginary || right.dividesByImaginary
  | comparison _ left right => left.dividesByImaginary || right.dividesByImaginary
  | sum _ left right => left.dividesByImaginary || right.dividesByImaginary
  | product left right => left.dividesByImaginary || right.dividesByImaginary
  | quotient left right =>
    left.dividesByImaginary || right.dividesByImaginary || right.imaginary?.isSome
  | _ => false

/-- Without such a quotient nothing is turned. -/
theorem turned_eq_self {expression : Expression} (none : expression.dividesByImaginary = false) :
    expression.turned = expression := by
  induction expression with
  | call function operand inductionHypothesis => rw [turned, inductionHypothesis none]
  | concat left right leftHypothesis rightHypothesis =>
      obtain ⟨inLeft, inRight⟩ := Bool.or_eq_false_iff.mp none
      rw [turned, leftHypothesis inLeft, rightHypothesis inRight]
  | negate operand inductionHypothesis => rw [turned, inductionHypothesis none]
  | not operand inductionHypothesis => rw [turned, inductionHypothesis none]
  | logical operator left right leftHypothesis rightHypothesis =>
      obtain ⟨inLeft, inRight⟩ := Bool.or_eq_false_iff.mp none
      rw [turned, leftHypothesis inLeft, rightHypothesis inRight]
  | comparison operator left right leftHypothesis rightHypothesis =>
      obtain ⟨inLeft, inRight⟩ := Bool.or_eq_false_iff.mp none
      rw [turned, leftHypothesis inLeft, rightHypothesis inRight]
  | sum sign left right leftHypothesis rightHypothesis =>
      obtain ⟨inLeft, inRight⟩ := Bool.or_eq_false_iff.mp none
      rw [turned, leftHypothesis inLeft, rightHypothesis inRight]
  | product left right leftHypothesis rightHypothesis =>
      obtain ⟨inLeft, inRight⟩ := Bool.or_eq_false_iff.mp none
      rw [turned, leftHypothesis inLeft, rightHypothesis inRight]
  | quotient left right leftHypothesis rightHypothesis =>
      obtain ⟨inOperands, noImaginary⟩ := Bool.or_eq_false_iff.mp none
      obtain ⟨inLeft, inRight⟩ := Bool.or_eq_false_iff.mp inOperands
      rw [turned, noImaginary, leftHypothesis inLeft, rightHypothesis inRight]
      rfl
  | _ => rfl

/-! ## Values in exact arithmetic -/

section Values

variable {functions : Builtin → List ℂ → ℂ} {output : ℂ → Number} {setting : Setting}
  {bound : Number}

theorem load_exact {number : Number} {value : ℂ} (stands : number.exactValue? = some value) :
    load (Arithmetic.exact functions output) number = .ok value := by
  simp [load, Arithmetic.exact, Arithmetic.exactScalar, stands, Except.map]

theorem value_literal {part : Float} {exact : ℝ} (stands : Binary64.exactValue? part = some exact) :
    (literal part).value (Arithmetic.exact functions output) setting bound = .ok [(exact : ℂ)] := by
  have number : (Number.real part).exactValue? = some (exact : ℂ) := by
    rw [Number.exactValue?, stands]
    rfl
  rw [literal, value, load_exact number]
  rfl

theorem value_unit :
    unit.value (Arithmetic.exact functions output) setting bound = .ok [Complex.I] := by
  have number : (Number.complex Cartesian.unit).exactValue? = some Complex.I := by
    simp [Number.exactValue?, Cartesian.unit, Binary64.exactValue?_zero, Binary64.exactValue?_one]
    rfl
  rw [unit, value, load_exact number]
  rfl

/-- A product with the imaginary unit. -/
theorem value_timesUnit (expression : Expression) :
    (product expression unit).value (Arithmetic.exact functions output) setting bound =
      (expression.value (Arithmetic.exact functions output) setting bound).map
        fun vector => vector.map fun component => component * Complex.I := by
  rw [value, value_unit]
  cases denotes : expression.value (Arithmetic.exact functions output) setting bound with
  | error => rfl
  | ok vector =>
      have some : 0 < vector.length := length_value denotes ▸ expression.width_pos
      simp only [Outcome.ok_bind, Outcome.pure_eq_ok, multiply_single_right _ some]
      rfl

/-- An imaginary constant denotes a multiple of the imaginary unit. -/
theorem value_imaginary {operand : Expression} {part : Float} {exact : ℝ}
    (found : operand.imaginary? = some part) (stands : Binary64.exactValue? part = some exact) :
    operand.value (Arithmetic.exact functions output) setting bound =
      .ok [(exact : ℂ) * Complex.I] := by
  obtain ⟨value, entry, rfl, zero, rfl⟩ := of_imaginary? found
  have number : (Number.complex value).exactValue? = some ((exact : ℂ) * Complex.I) := by
    simp only [Number.exactValue?, Binary64.exactValue?_of_beq_zero zero, stands]
    exact congrArg some (Complex.ext (by simp) (by simp))
  rw [Expression.value, load_exact number]
  rfl

/-- A constant is read as an expression of its value. -/
theorem value_ofNumber {found : Constant} (plain : found.value.hasUnsignedParts = true) :
    (ofNumber found.value).value (Arithmetic.exact functions output) setting bound =
      (constant found).value (Arithmetic.exact functions output) setting bound := by
  obtain ⟨number, entry⟩ := found
  cases number with
  | int => cases plain
  | real => rfl
  | complex value =>
      obtain ⟨realPlain, imaginaryPlain⟩ := Bool.and_eq_true_iff.mp plain
      obtain ⟨re, real⟩ := Binary64.exactValue?_of_isUnsigned realPlain
      obtain ⟨im, imaginary⟩ := Binary64.exactValue?_of_isUnsigned imaginaryPlain
      have term : (product (literal value.im) unit).value (Arithmetic.exact functions output)
          setting bound = .ok [(im : ℂ) * Complex.I] := by
        rw [value_timesUnit, value_literal imaginary]
        rfl
      by_cases zero : (value.re == 0) = true
      · have found : (constant ⟨.complex value, entry⟩).imaginary? = some value.im := by
          simp [imaginary?, Number.imaginary?, zero]
        rw [ofNumber, if_pos zero, term, value_imaginary found imaginary]
      · have number : (Number.complex value).exactValue? = some ((re : ℂ) + im * Complex.I) := by
          simp only [Number.exactValue?, real, imaginary]
          exact congrArg some (Complex.ext (by simp) (by simp))
        have whole : (constant ⟨.complex value, entry⟩).value (Arithmetic.exact functions output)
            setting bound = .ok [(re : ℂ) + im * Complex.I] := by
          rw [Expression.value, load_exact number]
          rfl
        rw [whole, ofNumber, if_neg zero, Expression.value, term, value_literal real]
        rfl

/-- A quotient by a real number, times the imaginary unit, is the opposite of the quotient by the
imaginary number. -/
theorem div_mul_I (dividend divisor : ℂ) :
    dividend / divisor * Complex.I = -(dividend / (divisor * Complex.I)) := by
  rw [← div_div, Complex.div_I]
  ring

/-- An operation whose last operand is read apart has a value if it has the value of what the
operation makes of the imaginary part, times the imaginary unit. -/
theorem value_behind {apply : Expression → Expression} {operand again : Expression}
    {vector : Except Fault (List ℂ)} (plain : ∀ step ∈ operand.code, step.hasUnsignedParts = true)
    (apart : ∀ (part : Float) (exact : ℝ), operand.imaginary? = some part →
      Binary64.exactValue? part = some exact →
        ((apply (literal part)).value (Arithmetic.exact functions output) setting bound).map
          (fun vector => vector.map fun component => component * Complex.I) = vector)
    (whole : operand.imaginary? = none →
      (apply again).value (Arithmetic.exact functions output) setting bound = vector) :
    (behind apply operand again).value (Arithmetic.exact functions output) setting bound =
      vector := by
  unfold behind
  split
  case h_1 part found =>
      obtain ⟨value, entry, rfl, _, rfl⟩ := of_imaginary? found
      have parts : (Number.complex value).hasUnsignedParts = true := plain _ (.head _)
      obtain ⟨exact, stands⟩ :=
        Binary64.exactValue?_of_isUnsigned (Bool.and_eq_true_iff.mp parts).2
      rw [value_timesUnit]
      exact apart _ exact found stands
  case h_2 none => exact whole none

theorem turned_of_imaginary? {operand : Expression} {part : Float}
    (found : operand.imaginary? = some part) : operand.turned = operand := by
  obtain ⟨_, _, rfl, _⟩ := of_imaginary? found
  rfl

/-- In exact arithmetic the text of a formula is read as an expression with the value of the formula
whose quotients by imaginary constants are turned. -/
theorem value_reread {expression : Expression}
    (plain : ∀ step ∈ expression.code, step.hasUnsignedParts = true) :
    expression.reread.value (Arithmetic.exact functions output) setting bound =
      expression.turned.value (Arithmetic.exact functions output) setting bound := by
  induction expression with
  | constant found => exact value_ofNumber (plain _ (.head _))
  | cell named => rfl
  | argument declared => rfl
  | call function operand inductionHypothesis =>
      have inOperand := (List.forall_mem_append.mp plain).1
      rw [reread, turned, value, inductionHypothesis inOperand, value]
  | concat left right leftHypothesis rightHypothesis =>
      obtain ⟨inLeft, inRight⟩ := List.forall_mem_append.mp plain
      rw [reread, turned, value, leftHypothesis inLeft, rightHypothesis inRight, value]
  | negate operand inductionHypothesis =>
      have inOperand := (List.forall_mem_append.mp plain).1
      refine value_behind inOperand (fun part exact found stands => ?_) fun _ => ?_
      · rw [turned, turned_of_imaginary? found, value, value_literal stands, value,
          value_imaginary found stands]
        exact congrArg (fun value => Except.ok [value]) (neg_mul _ _)
      · rw [turned, value, inductionHypothesis inOperand, value]
  | not operand inductionHypothesis =>
      have inOperand := (List.forall_mem_append.mp plain).1
      rw [reread, turned, value, inductionHypothesis inOperand, value]
  | logical operator left right leftHypothesis rightHypothesis =>
      obtain ⟨inLeft, inRight⟩ := List.forall_mem_append.mp (List.forall_mem_append.mp plain).1
      rw [reread, turned, value, leftHypothesis inLeft, rightHypothesis inRight, value]
  | comparison operator left right leftHypothesis rightHypothesis =>
      obtain ⟨inLeft, inRight⟩ := List.forall_mem_append.mp (List.forall_mem_append.mp plain).1
      rw [reread, turned, value, leftHypothesis inLeft, rightHypothesis inRight, value]
  | sum sign left right leftHypothesis rightHypothesis =>
      obtain ⟨inLeft, inRight⟩ := List.forall_mem_append.mp (List.forall_mem_append.mp plain).1
      rw [reread, turned, value, leftHypothesis inLeft, rightHypothesis inRight, value]
  | product left right leftHypothesis rightHypothesis =>
      obtain ⟨inLeft, inRight⟩ := List.forall_mem_append.mp (List.forall_mem_append.mp plain).1
      refine value_behind inRight (fun part exact found stands => ?_) fun _ => ?_
      · rw [turned, turned_of_imaginary? found, value, value_literal stands,
          leftHypothesis inLeft, value, value_imaginary found stands]
        cases denotes : left.turned.value (Arithmetic.exact functions output) setting bound with
        | error => rfl
        | ok vector =>
            have some : 0 < vector.length := length_value denotes ▸ left.turned.width_pos
            simp only [Outcome.ok_bind, Outcome.pure_eq_ok, multiply_single_right _ some,
              Except.map, List.map_map]
            exact congrArg Except.ok (List.map_congr_left fun component _ => mul_assoc _ _ _)
      · rw [turned, value, leftHypothesis inLeft, rightHypothesis inRight, value]
  | quotient left right leftHypothesis rightHypothesis =>
      obtain ⟨inLeft, inRight⟩ := List.forall_mem_append.mp (List.forall_mem_append.mp plain).1
      refine value_behind inRight (fun part exact found stands => ?_) fun none => ?_
      · rw [turned, found, Option.isSome_some, if_pos rfl, turned_of_imaginary? found]
        simp only [value, leftHypothesis inLeft, value_literal stands,
          value_imaginary found stands]
        cases denotes : left.turned.value (Arithmetic.exact functions output) setting bound with
        | error => rfl
        | ok vector =>
            simp only [Outcome.ok_bind, Outcome.pure_eq_ok, Except.map, List.map_map]
            refine congrArg Except.ok (List.map_congr_left fun component _ => ?_)
            exact div_mul_I component exact
      · rw [turned, none, Option.isSome_none, if_neg Bool.false_ne_true, value,
          leftHypothesis inLeft, rightHypothesis inRight, value]

end Values

end Expression

end Formulary
