import Formulary.Program

/-!
# Expressions

An expression is the tree that a formula stands for. Every expression denotes a vector; its width,
and the marks of its result type, follow from the tree. So does its code: the code of the operands
in order, then one step, which is a scalar or a vector operator according to the operand widths.

Parentheses leave no trace in the tree. A comma list is the concatenation of its components, and
the arguments of a function are concatenated in the same way.
-/

namespace Formulary

/-- The sign between the terms of a sum. -/
inductive SumSign
  | plus
  | minus
  deriving DecidableEq, Repr

/-- An expression. -/
inductive Expression
  | constant (value : Constant)
  | cell (named : Cell)
  | argument (declared : Argument)
  | call (function : Builtin) (operand : Expression)
  | concat (left right : Expression)
  | negate (operand : Expression)
  | not (operand : Expression)
  | logical (operator : Logical) (left right : Expression)
  | comparison (operator : Comparison) (left right : Expression)
  | sum (sign : SumSign) (left right : Expression)
  | product (left right : Expression)
  | quotient (left right : Expression)

namespace Expression

/-- The number of components. Sums have the width of the wider operand; a product is a dot product
when both factors are vectors; a quotient has the width of the dividend. -/
def width : Expression → Nat
  | constant _ => 1
  | cell _ => 1
  | argument declared => declared.width.val
  | call _ _ => 1
  | concat left right => left.width + right.width
  | negate operand => operand.width
  | not _ => 1
  | logical _ _ _ => 1
  | comparison _ _ _ => 1
  | sum _ left right => max left.width right.width
  | product left right =>
    if left.width = 1 then right.width else if right.width = 1 then left.width else 1
  | quotient left _ => left.width

/-- Whether the value is a truth value: the result of a comparison or of a boolean operator. -/
def isBoolean : Expression → Bool
  | not _ => true
  | logical _ _ _ => true
  | comparison _ _ _ => true
  | _ => false

/-- Whether the value may be complex: a complex constant or argument makes it so, but not through
a comparison or a boolean operator. Cells are taken to be real. -/
def isComplex : Expression → Bool
  | constant value => value.value.isComplex
  | cell _ => false
  | argument declared => declared.isComplex
  | call _ operand => operand.isComplex
  | concat left right => left.isComplex || right.isComplex
  | negate operand => operand.isComplex
  | not _ => false
  | logical _ _ _ => false
  | comparison _ _ _ => false
  | sum _ left right => left.isComplex || right.isComplex
  | product left right => left.isComplex || right.isComplex
  | quotient left right => left.isComplex || right.isComplex

/-- The result type. -/
def resultType (expression : Expression) : ResultType :=
  ⟨expression.width, expression.isBoolean, expression.isComplex⟩

/-- Every expression has at least one component. -/
theorem width_pos (expression : Expression) : 0 < expression.width := by
  induction expression with
  | argument declared => exact declared.width.property
  | concat left right leftPositive rightPositive => simp only [width]; omega
  | negate operand positive => exact positive
  | sum sign left right leftPositive rightPositive => simp only [width]; omega
  | product left right leftPositive rightPositive => simp only [width]; split <;> grind
  | quotient left right leftPositive rightPositive => exact leftPositive
  | _ => simp [width]

/-- The width as a positive number. -/
def positiveWidth (expression : Expression) : Positive :=
  ⟨expression.width, expression.width_pos⟩

/-- The step that adds or subtracts two operands. -/
def sumStep (sign : SumSign) (left right : Expression) : Step :=
  if left.width = 1 ∧ right.width = 1 then
    match sign with
    | .plus => .operator (.arithmetical .add)
    | .minus => .operator (.arithmetical .sub)
  else
    match sign with
    | .plus => .vector .add left.positiveWidth right.positiveWidth
    | .minus => .vector .sub left.positiveWidth right.positiveWidth

/-- The step that multiplies two operands. -/
def productStep (left right : Expression) : Step :=
  if left.width = 1 then
    if right.width = 1 then .operator (.arithmetical .mul)
    else .vector .scaleLeft left.positiveWidth right.positiveWidth
  else if right.width = 1 then .vector .scaleRight left.positiveWidth right.positiveWidth
  else .vector .dot left.positiveWidth right.positiveWidth

/-- The step that divides by a scalar. -/
def quotientStep (left right : Expression) : Step :=
  if left.width = 1 then .operator (.arithmetical .div)
  else .vector .divide left.positiveWidth right.positiveWidth

/-- The code of an expression: its operands from left to right, then its own step. -/
def code : Expression → List Step
  | constant value => [.constant value]
  | cell named => [.external named]
  | argument declared => declared.slots.map .argument
  | call function operand => operand.code ++ [.call function]
  | concat left right => left.code ++ right.code
  | negate operand => operand.code ++ [.negate operand.width]
  | not operand => operand.code ++ [.operator .not]
  | logical operator left right => left.code ++ right.code ++ [.operator (.logical operator)]
  | comparison operator left right =>
    left.code ++ right.code ++ [.operator (.comparison operator)]
  | sum sign left right => left.code ++ right.code ++ [sumStep sign left right]
  | product left right => left.code ++ right.code ++ [productStep left right]
  | quotient left right => left.code ++ right.code ++ [quotientStep left right]

end Expression

end Formulary
