import Formulary.Proofs.Grammar.Spine

/-!
# The expression of a derivation

A derivation has an expression. Its code and its result type are those of the derivation; where the
grammar chooses a step by the widths of the operands, so does the code of the expression.
-/

namespace Formulary.Grammar

/-- The expression of two operands that a sign joins. -/
def Sign.join {level : Level} : Sign level → Expression → Expression → Expression
  | comma => .concat
  | logical operator => .logical operator
  | comparison operator => .comparison operator
  | sum sign => .sum sign
  | star => .product
  | slash => .quotient

/-- The expression of an operand with a sign before it. -/
def Prefix.apply {level : Level} : Prefix level → Expression → Expression
  | not => .not
  | minus => .negate

/-- The operands that a sign before them accepts, by their widths. -/
def Prefix.Accepts {level : Level} (sign : Prefix level) (width : Nat) : Prop :=
  match sign with
  | not => width = 1
  | minus => True

/-- The expression of an atom. -/
def Atom.expression : Atom → Expression
  | number value => .constant value
  | constant value => .constant value
  | cell named => .cell named
  | argument declared => .argument declared

@[simp] theorem val_positiveWidth (expression : Expression) :
    expression.positiveWidth.val = expression.width := rfl

/-- The width and the code of joined operands are those that the sign foretells. -/
theorem Sign.positiveWidth_join {level : Level} (sign : Sign level) (left right : Expression) :
    (sign.join left right).positiveWidth = sign.width left.positiveWidth right.positiveWidth := by
  apply Subtype.ext
  cases sign with
  | star =>
      rw [join, width, val_positiveWidth, Expression.width]
      by_cases leftScalar : left.width = 1
      · have single : left.positiveWidth.val = 1 := leftScalar
        rw [if_pos leftScalar, if_pos single, val_positiveWidth]
      · have several : ¬left.positiveWidth.val = 1 := leftScalar
        rw [if_neg leftScalar, if_neg several]
        by_cases rightScalar : right.width = 1
        · have single : right.positiveWidth.val = 1 := rightScalar
          rw [if_pos rightScalar, if_pos single, val_positiveWidth]
        · have several : ¬right.positiveWidth.val = 1 := rightScalar
          rw [if_neg rightScalar, if_neg several]
  | _ => rfl

theorem Sign.code_join {level : Level} (sign : Sign level) (left right : Expression) :
    (sign.join left right).code =
      left.code ++ right.code ++ sign.steps left.positiveWidth right.positiveWidth := by
  cases sign with
  | comma => simp [join, Expression.code, steps]
  | sum sign =>
      simp only [join, Expression.code, Expression.sumStep]
      by_cases leftScalar : left.width = 1
      · by_cases rightScalar : right.width = 1 <;> cases sign <;>
          simp [steps, leftScalar, rightScalar]
      · cases sign <;> simp [steps, leftScalar]
  | star =>
      simp only [join, Expression.code, Expression.productStep, steps]
      by_cases leftScalar : left.width = 1
      · by_cases rightScalar : right.width = 1 <;> simp [leftScalar, rightScalar]
      · by_cases rightScalar : right.width = 1 <;> simp [leftScalar, rightScalar]
  | slash =>
      simp only [join, Expression.code, Expression.quotientStep, steps]
      by_cases scalar : left.width = 1 <;> simp [scalar]
  | _ => rfl

namespace Derivation

variable {level : Level}

/-- The expression of a derivation; parentheses leave no trace. -/
def tree {level : Level} : Derivation level → Expression
  | pass _ operand => operand.tree
  | chain left sign _ _ right => sign.join left.tree right.tree
  | signed sign _ _ operand => sign.apply operand.tree
  | atom leaf _ _ => leaf.expression
  | group _ _ _ _ items => items.tree
  | call function _ _ _ _ _ _ items => .call function items.tree

/-- The expressions of the operands that are joined at the level itself. -/
def operands {level : Level} : Derivation level → List Expression
  | pass _ operand => [operand.tree]
  | chain left _ _ _ right => left.operands ++ [right.tree]
  | _ => []

theorem positiveWidth_tree (derivation : Derivation level) :
    derivation.tree.positiveWidth = derivation.width := by
  induction derivation with
  | pass _ operand inductionHypothesis => exact inductionHypothesis
  | chain left sign _ _ right leftHypothesis rightHypothesis =>
      rw [tree, sign.positiveWidth_join, leftHypothesis, rightHypothesis, width]
  | signed sign _ _ operand inductionHypothesis =>
      cases sign with
      | not => rfl
      | minus => exact inductionHypothesis
  | atom leaf => cases leaf <;> rfl
  | group _ _ _ _ items inductionHypothesis => exact inductionHypothesis
  | call => rfl

theorem width_tree (derivation : Derivation level) :
    derivation.tree.width = derivation.width.val :=
  congrArg Subtype.val derivation.positiveWidth_tree

theorem isBoolean_tree (derivation : Derivation level) :
    derivation.tree.isBoolean = derivation.isBoolean := by
  induction derivation with
  | pass _ operand inductionHypothesis => exact inductionHypothesis
  | chain _ sign => cases sign <;> rfl
  | signed sign => cases sign <;> rfl
  | atom leaf => cases leaf <;> rfl
  | group _ _ _ _ items inductionHypothesis => exact inductionHypothesis
  | call => rfl

theorem isComplex_tree (derivation : Derivation level) :
    derivation.tree.isComplex = derivation.isComplex := by
  induction derivation with
  | pass _ operand inductionHypothesis => exact inductionHypothesis
  | chain left sign _ _ right leftHypothesis rightHypothesis =>
      cases sign <;>
        simp [tree, Sign.join, Expression.isComplex, isComplex, Sign.isBoolean, leftHypothesis,
          rightHypothesis]
  | signed sign _ _ operand inductionHypothesis =>
      cases sign with
      | not => rfl
      | minus => exact inductionHypothesis
  | atom leaf => cases leaf <;> rfl
  | group _ _ _ _ items inductionHypothesis => exact inductionHypothesis
  | call _ _ _ _ _ _ _ items inductionHypothesis => exact inductionHypothesis

/-- The result type of the expression is the one that the derivation synthesizes. -/
theorem resultType_tree (derivation : Derivation level) :
    derivation.tree.resultType = derivation.resultType := by
  rw [Expression.resultType, resultType, width_tree, isBoolean_tree, isComplex_tree]

/-- The code of the expression is the steps of the derivation in postorder. -/
theorem code_tree (derivation : Derivation level) : derivation.tree.code = derivation.steps := by
  induction derivation with
  | pass _ operand inductionHypothesis => exact inductionHypothesis
  | chain left sign _ _ right leftHypothesis rightHypothesis =>
      rw [tree, sign.code_join, leftHypothesis, rightHypothesis, positiveWidth_tree,
        positiveWidth_tree, steps]
  | signed sign _ _ operand inductionHypothesis =>
      cases sign with
      | not => simp only [tree, Prefix.apply, Expression.code, steps, inductionHypothesis]
      | minus =>
          simp only [tree, Prefix.apply, Expression.code, steps, inductionHypothesis, width_tree]
  | atom leaf => cases leaf <;> rfl
  | group _ _ _ _ items inductionHypothesis => exact inductionHypothesis
  | call _ _ _ _ _ _ _ items inductionHypothesis =>
      simp only [tree, Expression.code, steps, inductionHypothesis]

/-- The operands have the widths that are asked of them. -/
theorem operandWidths_eq (derivation : Derivation level) :
    derivation.operandWidths = derivation.operands.map Expression.width := by
  induction derivation with
  | pass _ operand => simp [operandWidths, operands, width_tree]
  | chain left _ _ _ right leftHypothesis _ =>
      simp [operandWidths, operands, leftHypothesis, width_tree]
  | _ => rfl

/-- The operands of a spine are its first operand and those of its segments. -/
theorem operands_extend (left : Derivation level) (segments : List (Segment level)) :
    (left.extend segments).operands =
      left.operands ++ segments.map fun segment => segment.operand.tree := by
  induction segments generalizing left with
  | nil => simp
  | cons segment rest inductionHypothesis => simp [inductionHypothesis, add, operands]

end Derivation

end Formulary.Grammar
