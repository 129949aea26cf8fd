import Formulary.Proofs.Code

/-!
# Imaginary constants in the text of a formula

A formula is written with parentheses around every operation. An imaginary constant, though, is
written as a double times the imaginary unit, and has none. As an operand of a sum, of a comparison
or of a function it is read as it is meant. But a sign that binds no less tightly than the product
inside takes the double alone, and the unit multiplies what results: `x / 2.0*I` is read as
`(x / 2.0) * I`.

`Expression.reread` is the expression that the text of an expression is read as. It has the width
and the marks of the expression, and is well typed if the expression is.
-/

namespace Formulary

/-- The imaginary part of an imaginary number: one of the complex kind whose real part is zero. -/
def Number.imaginary? : Number → Option Float
  | complex value => if value.re == 0 then some value.im else none
  | _ => none

namespace Expression

/-- The imaginary part of an expression that is an imaginary constant. -/
def imaginary? : Expression → Option Float
  | constant found => found.value.imaginary?
  | _ => none

/-- A double as a constant without a mark, as a literal is. -/
def literal (value : Float) : Expression := constant { value := .real value }

/-- The imaginary unit. -/
def unit : Expression := constant { value := .complex Cartesian.unit }

/-- What the text of a number is read as. -/
def ofNumber : Number → Expression
  | .complex value =>
    if value.re == 0 then product (literal value.im) unit
    else sum .plus (literal value.re) (product (literal value.im) unit)
  | number => constant { value := number }

/-- What the text of an operation is read as whose last operand is read as `again`. Of an imaginary
constant the operation takes the imaginary part alone. -/
def behind (apply : Expression → Expression) (operand again : Expression) : Expression :=
  match operand.imaginary? with
  | some part => product (apply (literal part)) unit
  | none => apply again

/-- What the text of an expression is read as. -/
def reread : Expression → Expression
  | constant found => ofNumber found.value
  | cell named => cell named
  | argument declared => argument declared
  | call function operand => call function operand.reread
  | concat left right => concat left.reread right.reread
  | negate operand => behind negate operand operand.reread
  | not operand => not operand.reread
  | logical operator left right => logical operator left.reread right.reread
  | comparison operator left right => comparison operator left.reread right.reread
  | sum sign left right => sum sign left.reread right.reread
  | product left right => behind (product left.reread) right right.reread
  | quotient left right => behind (quotient left.reread) right right.reread

/-! ## The result type -/

section Behind

variable {apply : Expression → Expression} {operand again : Expression} {part : Float}

/-- An imaginary constant is a complex scalar. -/
theorem of_imaginary? (found : operand.imaginary? = some part) :
    ∃ value : Cartesian, ∃ entry, operand = constant ⟨.complex value, entry⟩ ∧
      (value.re == 0) = true ∧ value.im = part := by
  cases operand with
  | constant constant =>
      obtain ⟨value, entry⟩ := constant
      cases value with
      | complex value =>
          simp only [imaginary?, Number.imaginary?] at found
          split at found
          case isTrue zero => exact ⟨value, entry, rfl, zero, Option.some_inj.mp found⟩
          case isFalse => cases found
      | _ => cases found
  | _ => cases found

theorem width_timesUnit (expression : Expression) :
    (product expression unit).width = expression.width := by
  have scalar : unit.width = 1 := rfl
  rw [width, scalar, if_pos rfl]
  split <;> omega

theorem width_behind {width : Nat} (same : again.width = operand.width)
    (applied : ∀ last, last.width = operand.width → (apply last).width = width) :
    (behind apply operand again).width = width := by
  unfold behind
  split
  case h_1 part found =>
      obtain ⟨_, _, rfl, _⟩ := of_imaginary? found
      rw [width_timesUnit]
      exact applied _ rfl
  case h_2 => exact applied _ same

theorem isComplex_behind {mark : Bool} (same : again.isComplex = operand.isComplex)
    (applied : ∀ last, (apply last).isComplex = (mark || last.isComplex)) :
    (behind apply operand again).isComplex = (mark || operand.isComplex) := by
  unfold behind
  split
  case h_1 part found =>
      obtain ⟨_, _, rfl, _⟩ := of_imaginary? found
      simp [isComplex, unit, Number.isComplex]
  case h_2 => rw [applied, same]

theorem isBoolean_behind (applied : ∀ last, (apply last).isBoolean = false) :
    (behind apply operand again).isBoolean = false := by
  unfold behind
  split
  case h_1 => rfl
  case h_2 => exact applied _

theorem wellTyped_behind (same : again.width = operand.width) (typed : again.WellTyped)
    (applied : ∀ last, last.WellTyped → last.width = operand.width → (apply last).WellTyped) :
    (behind apply operand again).WellTyped := by
  unfold behind
  split
  case h_1 part found =>
      obtain ⟨_, _, rfl, _⟩ := of_imaginary? found
      exact ⟨applied _ trivial rfl, trivial⟩
  case h_2 => exact applied _ typed same

end Behind

theorem width_ofNumber (number : Number) : (ofNumber number).width = 1 := by
  cases number with
  | complex value =>
      rw [ofNumber]
      split
      case isTrue => rfl
      case isFalse => rfl
  | _ => rfl

/-- The text is read as widely as it was written. -/
theorem width_reread (expression : Expression) : expression.reread.width = expression.width := by
  induction expression with
  | constant found => exact width_ofNumber found.value
  | concat left right leftHypothesis rightHypothesis =>
      rw [reread, width, leftHypothesis, rightHypothesis, width]
  | negate operand inductionHypothesis =>
      exact width_behind inductionHypothesis fun _ same => same
  | sum sign left right leftHypothesis rightHypothesis =>
      rw [reread, width, leftHypothesis, rightHypothesis, width]
  | product left right leftHypothesis rightHypothesis =>
      refine width_behind rightHypothesis fun last same => ?_
      rw [width, leftHypothesis, same, width]
  | quotient left right leftHypothesis rightHypothesis =>
      exact width_behind rightHypothesis fun _ _ => leftHypothesis
  | _ => rfl

theorem positiveWidth_reread (expression : Expression) :
    expression.reread.positiveWidth = expression.positiveWidth :=
  Subtype.ext expression.width_reread

theorem isBoolean_reread (expression : Expression) :
    expression.reread.isBoolean = expression.isBoolean := by
  cases expression with
  | constant found =>
      obtain ⟨number, entry⟩ := found
      cases number with
      | complex value =>
          rw [reread, ofNumber]
          split <;> rfl
      | _ => rfl
  | negate operand => exact isBoolean_behind fun _ => rfl
  | product left right => exact isBoolean_behind fun _ => rfl
  | quotient left right => exact isBoolean_behind fun _ => rfl
  | _ => rfl

theorem isComplex_reread (expression : Expression) :
    expression.reread.isComplex = expression.isComplex := by
  induction expression with
  | constant found =>
      obtain ⟨number, entry⟩ := found
      cases number with
      | complex value =>
          rw [reread, ofNumber]
          split <;> rfl
      | _ => rfl
  | call function operand inductionHypothesis => exact inductionHypothesis
  | concat left right leftHypothesis rightHypothesis =>
      rw [reread, isComplex, leftHypothesis, rightHypothesis, isComplex]
  | negate operand inductionHypothesis =>
      refine (isComplex_behind inductionHypothesis fun last => ?_).trans (Bool.false_or _)
      rw [isComplex, Bool.false_or]
  | sum sign left right leftHypothesis rightHypothesis =>
      rw [reread, isComplex, leftHypothesis, rightHypothesis, isComplex]
  | product left right leftHypothesis rightHypothesis =>
      refine isComplex_behind rightHypothesis fun last => ?_
      rw [isComplex, leftHypothesis]
  | quotient left right leftHypothesis rightHypothesis =>
      refine isComplex_behind rightHypothesis fun last => ?_
      rw [isComplex, leftHypothesis]
  | _ => rfl

/-- The text of a formula is read with the result type of the formula. -/
theorem resultType_reread (expression : Expression) :
    expression.reread.resultType = expression.resultType := by
  rw [resultType, resultType, width_reread, isBoolean_reread, isComplex_reread]

theorem wellTyped_reread {expression : Expression} (typed : expression.WellTyped) :
    expression.reread.WellTyped := by
  induction expression with
  | constant found =>
      obtain ⟨number, entry⟩ := found
      cases number with
      | complex value =>
          rw [reread, ofNumber]
          split
          case isTrue => exact ⟨trivial, trivial⟩
          case isFalse => exact ⟨trivial, trivial, trivial⟩
      | _ => trivial
  | call function operand inductionHypothesis =>
      exact ⟨inductionHypothesis typed.1, operand.width_reread.trans typed.2⟩
  | concat left right leftHypothesis rightHypothesis =>
      exact ⟨leftHypothesis typed.1, rightHypothesis typed.2⟩
  | negate operand inductionHypothesis =>
      exact wellTyped_behind operand.width_reread (inductionHypothesis typed) fun _ last _ => last
  | not operand inductionHypothesis =>
      exact ⟨inductionHypothesis typed.1, operand.width_reread.trans typed.2⟩
  | logical operator left right leftHypothesis rightHypothesis =>
      exact ⟨leftHypothesis typed.1, rightHypothesis typed.2.1,
        left.width_reread.trans typed.2.2.1, right.width_reread.trans typed.2.2.2⟩
  | comparison operator left right leftHypothesis rightHypothesis =>
      exact ⟨leftHypothesis typed.1, rightHypothesis typed.2.1,
        left.width_reread.trans typed.2.2.1, right.width_reread.trans typed.2.2.2⟩
  | sum sign left right leftHypothesis rightHypothesis =>
      exact ⟨leftHypothesis typed.1, rightHypothesis typed.2⟩
  | product left right leftHypothesis rightHypothesis =>
      exact wellTyped_behind right.width_reread (rightHypothesis typed.2) fun _ last _ =>
        ⟨leftHypothesis typed.1, last⟩
  | quotient left right leftHypothesis rightHypothesis =>
      exact wellTyped_behind right.width_reread (rightHypothesis typed.2.1) fun _ last same =>
        ⟨leftHypothesis typed.1, last, same.trans typed.2.2⟩
  | _ => trivial

end Expression

end Formulary
