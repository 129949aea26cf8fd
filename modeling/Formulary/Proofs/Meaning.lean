import Formulary.Evaluation
import Formulary.Expression
import Formulary.Proofs.Outcome

/-!
# The meaning of an expression

Every expression denotes a vector, which is a list of scalars. The meaning is given by recursion on
the expression, without steps and without a stack. What can go wrong in it is that a number has no
scalar in the domain, that a slot has no input, or that the tolerance decides nothing.
-/

namespace Formulary.Expression

variable {α : Type}

/-! ## Operations on vectors -/

section Vectors

variable (arithmetic : Arithmetic α) (bound : Number)

/-- The component of a vector that takes part at an index: the only one of a scalar goes with every
component of another vector, and beyond the width there are zeros. -/
def component (zero : α) (vector : List α) (index : Nat) : α :=
  if vector.length = 1 then vector.headD zero else vector.getD index zero

/-- An operation component by component, as wide as the wider vector. -/
def combine (zero : α) (apply : α → α → α) (left right : List α) : List α :=
  (List.range (max left.length right.length)).map fun index =>
    apply (component zero left index) (component zero right index)

/-- The sum of the products of the components, over the width of the shorter vector. -/
def dot (left right : List α) : α :=
  (List.zipWith arithmetic.mul left right).foldl arithmetic.add arithmetic.zero

/-- The product of two vectors: the dot product, unless one of them is a scalar. -/
def multiply (left right : List α) : List α :=
  if left.length = 1 ∨ right.length = 1 then combine arithmetic.zero arithmetic.mul left right
  else [dot arithmetic left right]

/-- The value of a vector that is a scalar. -/
def scalar (vector : List α) : α := vector.headD arithmetic.zero

/-- What a comparison sees of a scalar: its real part, or zero when it has an imaginary part. -/
def compared (value : α) : α :=
  if arithmetic.isImaginary value then arithmetic.zero else arithmetic.realPart value

/-- The truth value of a comparison. Where neither side can be compared, zero is compared with
itself. -/
def compareScalars (operator : Comparison) (left right : α) : Except Fault α := do
  let flag ←
    if arithmetic.isImaginary left && arithmetic.isImaginary right then
      Tolerance.compareZeros bound operator
    else arithmetic.compare bound operator (compared arithmetic left) (compared arithmetic right)
  return arithmetic.truth [left, right] flag

/-- The truth value of a boolean operator on the real parts. -/
def connectScalars (operator : Logical) (left right : α) : Except Fault α := do
  let flag ←
    arithmetic.connect bound operator (arithmetic.realPart left) (arithmetic.realPart right)
  return arithmetic.truth [left, right] flag

/-- The truth value of a negation on the real part. -/
def negateScalar (operand : α) : Except Fault α := do
  let flag ← arithmetic.negate bound (arithmetic.realPart operand)
  return arithmetic.truth [operand] flag

/-- The scalar of a constant or of what a cell holds. -/
def load (number : Number) : Except Fault α := do
  let (value, _) ← arithmetic.stored number
  return value

end Vectors

/-- The arithmetic of a sum. -/
def sumApply (arithmetic : Arithmetic α) (sign : SumSign) : α → α → α :=
  match sign with
  | .plus => arithmetic.add
  | .minus => arithmetic.sub

variable (arithmetic : Arithmetic α) (setting : Setting) (bound : Number)

/-- The vector that an expression denotes. -/
def value : Expression → Except Fault (List α)
  | constant found => do return [← load arithmetic found.value]
  | cell named => do return [← load arithmetic (setting.store named)]
  | argument declared =>
    declared.slots.mapM fun slot => Evaluation.input arithmetic setting slot.val
  | call function operand => do return [arithmetic.call function (← operand.value)]
  | concat left right => do return (← left.value) ++ (← right.value)
  | negate operand => do return (← operand.value).map arithmetic.neg
  | not operand => do
    let operand ← operand.value
    return [← negateScalar arithmetic bound (scalar arithmetic operand)]
  | logical operator left right => do
    let left ← left.value
    let right ← right.value
    return [← connectScalars arithmetic bound operator (scalar arithmetic left)
      (scalar arithmetic right)]
  | comparison operator left right => do
    let left ← left.value
    let right ← right.value
    return [← compareScalars arithmetic bound operator (scalar arithmetic left)
      (scalar arithmetic right)]
  | sum sign left right => do
    return combine arithmetic.zero (sumApply arithmetic sign) (← left.value) (← right.value)
  | product left right => do return multiply arithmetic (← left.value) (← right.value)
  | quotient left right => do
    let left ← left.value
    let right ← right.value
    return left.map fun component => arithmetic.div component (scalar arithmetic right)

variable {arithmetic setting bound}

theorem length_combine (zero : α) (apply : α → α → α) (left right : List α) :
    (combine zero apply left right).length = max left.length right.length := by
  simp [combine]

/-- A product has the width that its factors foretell. -/
theorem length_multiply {left right : List α} {leftWidth rightWidth : Nat}
    (leftExact : left.length = leftWidth) (rightExact : right.length = rightWidth)
    (leftPositive : 0 < leftWidth) (rightPositive : 0 < rightWidth) :
    (multiply arithmetic left right).length =
      if leftWidth = 1 then rightWidth else if rightWidth = 1 then leftWidth else 1 := by
  subst leftExact rightExact
  unfold multiply
  split
  case isTrue scalars =>
      rw [length_combine]
      split
      · omega
      · split <;> omega
  case isFalse vectors =>
      rw [if_neg (by omega), if_neg (by omega)]
      rfl

/-- An expression denotes a vector of its width. -/
theorem length_value {expression : Expression} {vector : List α}
    (denotes : expression.value arithmetic setting bound = .ok vector) :
    vector.length = expression.width := by
  induction expression generalizing vector with
  | constant found =>
      obtain ⟨_, _, finished⟩ := Outcome.bind_eq_ok_iff.mp denotes
      cases finished
      rfl
  | cell named =>
      obtain ⟨_, _, finished⟩ := Outcome.bind_eq_ok_iff.mp denotes
      cases finished
      rfl
  | argument declared =>
      have slots := (Outcome.mapM_eq_ok_iff.mp denotes).length_eq
      rw [← slots, declared.length_slots, width]
  | call function operand _ =>
      obtain ⟨_, _, finished⟩ := Outcome.bind_eq_ok_iff.mp denotes
      cases finished
      rfl
  | concat left right leftHypothesis rightHypothesis =>
      obtain ⟨leftValue, leftDenotes, denotes⟩ := Outcome.bind_eq_ok_iff.mp denotes
      obtain ⟨rightValue, rightDenotes, finished⟩ := Outcome.bind_eq_ok_iff.mp denotes
      cases finished
      rw [List.length_append, leftHypothesis leftDenotes, rightHypothesis rightDenotes, width]
  | negate operand inductionHypothesis =>
      obtain ⟨_, operandDenotes, finished⟩ := Outcome.bind_eq_ok_iff.mp denotes
      cases finished
      rw [List.length_map, inductionHypothesis operandDenotes, width]
  | not operand _ =>
      obtain ⟨_, _, denotes⟩ := Outcome.bind_eq_ok_iff.mp denotes
      obtain ⟨_, _, finished⟩ := Outcome.bind_eq_ok_iff.mp denotes
      cases finished
      rfl
  | logical operator left right _ _ =>
      obtain ⟨_, _, denotes⟩ := Outcome.bind_eq_ok_iff.mp denotes
      obtain ⟨_, _, denotes⟩ := Outcome.bind_eq_ok_iff.mp denotes
      obtain ⟨_, _, finished⟩ := Outcome.bind_eq_ok_iff.mp denotes
      cases finished
      rfl
  | comparison operator left right _ _ =>
      obtain ⟨_, _, denotes⟩ := Outcome.bind_eq_ok_iff.mp denotes
      obtain ⟨_, _, denotes⟩ := Outcome.bind_eq_ok_iff.mp denotes
      obtain ⟨_, _, finished⟩ := Outcome.bind_eq_ok_iff.mp denotes
      cases finished
      rfl
  | sum sign left right leftHypothesis rightHypothesis =>
      obtain ⟨leftValue, leftDenotes, denotes⟩ := Outcome.bind_eq_ok_iff.mp denotes
      obtain ⟨rightValue, rightDenotes, finished⟩ := Outcome.bind_eq_ok_iff.mp denotes
      cases finished
      rw [length_combine, leftHypothesis leftDenotes, rightHypothesis rightDenotes, width]
  | product left right leftHypothesis rightHypothesis =>
      obtain ⟨leftValue, leftDenotes, denotes⟩ := Outcome.bind_eq_ok_iff.mp denotes
      obtain ⟨rightValue, rightDenotes, finished⟩ := Outcome.bind_eq_ok_iff.mp denotes
      cases finished
      exact length_multiply (leftHypothesis leftDenotes) (rightHypothesis rightDenotes)
        left.width_pos right.width_pos
  | quotient left right leftHypothesis _ =>
      obtain ⟨leftValue, leftDenotes, denotes⟩ := Outcome.bind_eq_ok_iff.mp denotes
      obtain ⟨_, _, finished⟩ := Outcome.bind_eq_ok_iff.mp denotes
      cases finished
      rw [List.length_map, leftHypothesis leftDenotes, width]

end Formulary.Expression
