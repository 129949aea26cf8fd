import Formulary.Expression
import Formulary.Token

/-!
# The grammar of formulas

    list       := expression | list "," expression
    expression := negation | expression ("and" | "or") negation
    negation   := comparison | "not" negation
    comparison := additive | comparison (">" | "<" | ">=" | "<=" | "==") additive
    additive   := term | additive ("+" | "-") term
    term       := unary | term ("*" | "/") unary
    unary      := primary | "-" unary
    primary    := NUMBER | CONSTANT | VARIABLE | ARGUMENT
                | FUNCTION "(" list ")" | "(" list ")"

A repetition associates to the left, so it is written as a rule that starts with its own level.
Derivations are trees over these rules whose leaves are tokens. The grammar knows nothing of widths;
what a derivation has to fulfil besides is `Admissible`, and its steps and its result type are
synthesized from the leaves upwards.

There is no reader here. That the reader of formulas follows this grammar is a theorem about both.
-/

namespace Formulary.Grammar

/-- The levels of the grammar, from the loosest to the tightest. -/
inductive Level
  | list
  | expression
  | negation
  | comparison
  | additive
  | term
  | unary
  | primary
  deriving DecidableEq, Repr

/-- The level of the operands of a level. -/
def Level.inner : Level → Level
  | list => expression
  | expression => negation
  | negation => comparison
  | comparison => additive
  | additive => term
  | term => unary
  | unary => primary
  | primary => primary

/-- The signs that stand between the operands of a level. -/
inductive Sign : Level → Type
  | comma : Sign .list
  | logical (operator : Logical) : Sign .expression
  | comparison (operator : Comparison) : Sign .comparison
  | sum (sign : SumSign) : Sign .additive
  | star : Sign .term
  | slash : Sign .term

/-- The signs that stand before the operand of a level. -/
inductive Prefix : Level → Type
  | not : Prefix .negation
  | minus : Prefix .unary

/-- The tokens that are a primary by themselves. -/
inductive Atom
  | number (value : Constant)
  | constant (value : Constant)
  | cell (named : Cell)
  | argument (declared : Argument)

/-- The lexeme of the sign of a sum. -/
def sumLexeme : SumSign → Lexeme
  | .plus => .plus
  | .minus => .minus

/-- The lexeme of a sign between operands. -/
def Sign.lexeme {level : Level} : Sign level → Lexeme
  | comma => .comma
  | logical operator => .logical operator
  | comparison operator => .comparison operator
  | sum sign => sumLexeme sign
  | star => .star
  | slash => .slash

/-- The lexeme of a sign before an operand. -/
def Prefix.lexeme {level : Level} : Prefix level → Lexeme
  | not => .not
  | minus => .minus

/-- The lexeme of an atom. -/
def Atom.lexeme : Atom → Lexeme
  | number value => .number value
  | constant value => .constant value
  | cell named => .cell named
  | argument declared => .argument declared

/-- A derivation from a level of the grammar. Its leaves are tokens, which may be written in any way
as long as they say what the rule asks for. -/
inductive Derivation : Level → Type
  | pass {level : Level} (below : level ≠ .primary) (operand : Derivation level.inner) :
      Derivation level
  | chain {level : Level} (left : Derivation level) (sign : Sign level) (token : Token)
      (spells : token.lexeme = sign.lexeme) (right : Derivation level.inner) : Derivation level
  | signed {level : Level} (sign : Prefix level) (token : Token)
      (spells : token.lexeme = sign.lexeme) (operand : Derivation level) : Derivation level
  | atom (leaf : Atom) (token : Token) (spells : token.lexeme = leaf.lexeme) : Derivation .primary
  | group (opening closing : Token) (opens : opening.lexeme = .leftParen)
      (closes : closing.lexeme = .rightParen) (items : Derivation .list) : Derivation .primary
  | call (function : Builtin) (name opening closing : Token)
      (names : name.lexeme = .function function) (opens : opening.lexeme = .leftParen)
      (closes : closing.lexeme = .rightParen) (items : Derivation .list) : Derivation .primary

/-! ## What signs and atoms contribute -/

namespace Sign

variable {level : Level}

/-- The width of what a sign joins: commas add up, sums are as wide as the wider operand, a product
with a scalar is as wide as the other factor, two vectors have a scalar product, a quotient is as
wide as the dividend, and truth values are scalars. -/
def width (sign : Sign level) (left right : Positive) : Positive :=
  match sign with
  | comma => ⟨left.val + right.val, Nat.add_pos_left left.property _⟩
  | logical _ => ⟨1, Nat.one_pos⟩
  | comparison _ => ⟨1, Nat.one_pos⟩
  | sum _ => ⟨max left.val right.val, Nat.lt_of_lt_of_le left.property (Nat.le_max_left _ _)⟩
  | star => if left.val = 1 then right else if right.val = 1 then left else ⟨1, Nat.one_pos⟩
  | slash => left

/-- Whether a sign makes a truth value. -/
def isBoolean : Sign level → Bool
  | logical _ => true
  | comparison _ => true
  | _ => false

/-- The operands that a sign accepts, by their widths. -/
def Accepts (sign : Sign level) (left right : Positive) : Prop :=
  match sign with
  | logical _ => left.val = 1 ∧ right.val = 1
  | comparison _ => left.val = 1 ∧ right.val = 1
  | slash => right.val = 1
  | _ => True

/-- The step that a sign stands for, if any, by the widths of its operands. -/
def steps (sign : Sign level) (left right : Positive) : List Step :=
  match sign with
  | comma => []
  | logical operator => [.operator (.logical operator)]
  | comparison operator => [.operator (.comparison operator)]
  | sum .plus =>
    if left.val = 1 ∧ right.val = 1 then [.operator (.arithmetical .add)]
    else [.vector .add left right]
  | sum .minus =>
    if left.val = 1 ∧ right.val = 1 then [.operator (.arithmetical .sub)]
    else [.vector .sub left right]
  | star =>
    if left.val = 1 ∧ right.val = 1 then [.operator (.arithmetical .mul)]
    else if left.val = 1 then [.vector .scaleLeft left right]
    else if right.val = 1 then [.vector .scaleRight left right]
    else [.vector .dot left right]
  | slash =>
    if left.val = 1 then [.operator (.arithmetical .div)] else [.vector .divide left right]

end Sign

namespace Atom

/-- The width of an atom. -/
def width : Atom → Positive
  | argument declared => declared.width
  | _ => ⟨1, Nat.one_pos⟩

/-- Whether an atom is complex: a constant or argument may be, a cell is taken to be real. -/
def isComplex : Atom → Bool
  | number value => value.value.isComplex
  | constant value => value.value.isComplex
  | cell _ => false
  | argument declared => declared.isComplex

/-- The steps that push an atom. -/
def steps : Atom → List Step
  | number value => [.constant value]
  | constant value => [.constant value]
  | cell named => [.external named]
  | argument declared => declared.slots.map .argument

end Atom

/-! ## Attributes of derivations -/

namespace Derivation

variable {level : Level}

/-- The tokens at the leaves, from left to right. -/
def tokens {level : Level} : Derivation level → List Token
  | pass _ operand => operand.tokens
  | chain left _ token _ right => left.tokens ++ token :: right.tokens
  | signed _ token _ operand => token :: operand.tokens
  | atom _ token _ => [token]
  | group opening closing _ _ items => opening :: (items.tokens ++ [closing])
  | call _ name opening closing _ _ _ items => name :: opening :: (items.tokens ++ [closing])

/-- The number of components. -/
def width {level : Level} : Derivation level → Positive
  | pass _ operand => operand.width
  | chain left sign _ _ right => sign.width left.width right.width
  | signed .not _ _ _ => ⟨1, Nat.one_pos⟩
  | signed .minus _ _ operand => operand.width
  | atom leaf _ _ => leaf.width
  | group _ _ _ _ items => items.width
  | call _ _ _ _ _ _ _ _ => ⟨1, Nat.one_pos⟩

/-- Whether the value is a truth value: a comparison or the result of a boolean operator, also in
parentheses of its own. -/
def isBoolean {level : Level} : Derivation level → Bool
  | pass _ operand => operand.isBoolean
  | chain _ sign _ _ _ => sign.isBoolean
  | signed .not _ _ _ => true
  | signed .minus _ _ _ => false
  | atom _ _ _ => false
  | group _ _ _ _ items => items.isBoolean
  | call _ _ _ _ _ _ _ _ => false

/-- Whether the value may be complex: a complex atom makes it so, but not through a truth value. -/
def isComplex {level : Level} : Derivation level → Bool
  | pass _ operand => operand.isComplex
  | chain left sign _ _ right => !sign.isBoolean && (left.isComplex || right.isComplex)
  | signed .not _ _ _ => false
  | signed .minus _ _ operand => operand.isComplex
  | atom leaf _ _ => leaf.isComplex
  | group _ _ _ _ items => items.isComplex
  | call _ _ _ _ _ _ _ items => items.isComplex

/-- The result type. -/
def resultType (derivation : Derivation level) : ResultType :=
  ⟨derivation.width.val, derivation.isBoolean, derivation.isComplex⟩

/-- The steps, those of the operands from left to right before the step that takes them. -/
def steps {level : Level} : Derivation level → List Step
  | pass _ operand => operand.steps
  | chain left sign _ _ right =>
    left.steps ++ right.steps ++ sign.steps left.width right.width
  | signed .not _ _ operand => operand.steps ++ [.operator .not]
  | signed .minus _ _ operand => operand.steps ++ [.negate operand.width.val]
  | atom leaf _ _ => leaf.steps
  | group _ _ _ _ items => items.steps
  | call function _ _ _ _ _ _ items => items.steps ++ [.call function]

/-- The widths of the operands that are joined at the level itself. -/
def operandWidths {level : Level} : Derivation level → List Nat
  | pass _ operand => [operand.width.val]
  | chain left _ _ _ right => left.operandWidths ++ [right.width.val]
  | _ => []

/-- The conditions on widths and on numbers of arguments: comparisons, boolean operators and
functions take scalars, a divisor is a scalar, and a function has as many arguments as it takes. -/
def Admissible {level : Level} : Derivation level → Prop
  | pass _ operand => operand.Admissible
  | chain left sign _ _ right =>
    left.Admissible ∧ right.Admissible ∧ sign.Accepts left.width right.width
  | signed .not _ _ operand => operand.Admissible ∧ operand.width.val = 1
  | signed .minus _ _ operand => operand.Admissible
  | atom _ _ _ => True
  | group _ _ _ _ items => items.Admissible
  | call function _ _ _ _ _ _ items =>
    items.Admissible ∧ items.operandWidths.length = function.arity ∧
      ∀ width ∈ items.operandWidths, width = 1

end Derivation

end Formulary.Grammar
