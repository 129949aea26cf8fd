import Formulary.Text.Quoted

/-!
# Operators and operation codes

Scalar operators take their operands one by one from the stack; vector operators take groups of
values. Every step of a program has an operation code, which hosts use to name operators.
-/

namespace Formulary

/-- The comparisons. -/
inductive Comparison
  | greater
  | less
  | greaterEqual
  | lessEqual
  | equal
  deriving DecidableEq, Repr

/-- The boolean operators with two operands. -/
inductive Logical
  | and
  | or
  deriving DecidableEq, Repr

/-- The arithmetic operators on two scalars. -/
inductive Arithmetical
  | add
  | sub
  | mul
  | div
  deriving DecidableEq, Repr

/-- The operators on scalars. -/
inductive Operator
  | arithmetical (operator : Arithmetical)
  | comparison (operator : Comparison)
  | logical (operator : Logical)
  | not
  deriving DecidableEq, Repr

/-- The operators on groups of values: sum and difference, a vector times a scalar from either
side, the dot product, and a vector over a scalar. -/
inductive VectorOperator
  | add
  | sub
  | scaleRight
  | scaleLeft
  | dot
  | divide
  deriving DecidableEq, Repr

/-- The operation codes. -/
inductive Opcode
  | add
  | sub
  | mult
  | div
  | neg
  | vecAdd
  | vecSub
  | vecScalMult
  | scalVecMult
  | vecVecMult
  | vecScalDiv
  | and
  | or
  | not
  | greater
  | less
  | greaterEqual
  | lessEqual
  | equal
  | constant
  | argument
  | external
  | function
  | finish
  deriving DecidableEq, Repr

namespace Opcode

/-- All operation codes. -/
def all : List Opcode :=
  [add, sub, mult, div, neg, vecAdd, vecSub, vecScalMult, scalVecMult, vecVecMult, vecScalDiv, and,
    or, not, greater, less, greaterEqual, lessEqual, equal, constant, argument, external, function,
    finish]

/-- The text that stands for the code. -/
def text : Opcode → String
  | add => "+"
  | sub => "-"
  | mult => "*"
  | div => "/"
  | neg => "neg"
  | vecAdd => "vec+"
  | vecSub => "vec-"
  | vecScalMult => "vec*scal"
  | scalVecMult => "scal*vec"
  | vecVecMult => "vec*vec"
  | vecScalDiv => "vec/scal"
  | and => "and"
  | or => "or"
  | not => "not"
  | greater => ">"
  | less => "<"
  | greaterEqual => ">="
  | lessEqual => "<="
  | equal => "=="
  | constant => "const"
  | argument => "arg"
  | external => "glob"
  | function => "call"
  | finish => "end"

/-- The name of the code in capitals. -/
def label : Opcode → String
  | add => "ADD"
  | sub => "SUB"
  | mult => "MULT"
  | div => "DIV"
  | neg => "NEG"
  | vecAdd => "VEC_ADD"
  | vecSub => "VEC_SUB"
  | vecScalMult => "VEC_SCAL_MULT"
  | scalVecMult => "SCAL_VEC_MULT"
  | vecVecMult => "VEC_VEC_MULT"
  | vecScalDiv => "VEC_SCAL_DIV"
  | and => "AND"
  | or => "OR"
  | not => "NOT"
  | greater => "GREATER"
  | less => "LESS"
  | greaterEqual => "GREATER_EQUAL"
  | lessEqual => "LESS_EQUAL"
  | equal => "EQUAL"
  | constant => "CONSTANT"
  | argument => "VARIABLE"
  | external => "GLOBVAR"
  | function => "FUNCTION"
  | finish => "END"

/-- The name of the code in small letters. -/
def mnemonic (code : Opcode) : String :=
  String.ofList (code.label.toList.map Char.toLower)

/-- The code that a text stands for. -/
def ofText? (text : String) : Option Opcode :=
  all.find? fun code => code.text == text

/-- A description of the code. -/
def describe (code : Opcode) : String :=
  s!"<Opcode.{code.label}: {Text.quoted code.text}>"

/-- The scalar operator of a code. -/
def operator? : Opcode → Option Operator
  | add => some (.arithmetical .add)
  | sub => some (.arithmetical .sub)
  | mult => some (.arithmetical .mul)
  | div => some (.arithmetical .div)
  | and => some (.logical .and)
  | or => some (.logical .or)
  | not => some .not
  | greater => some (.comparison .greater)
  | less => some (.comparison .less)
  | greaterEqual => some (.comparison .greaterEqual)
  | lessEqual => some (.comparison .lessEqual)
  | equal => some (.comparison .equal)
  | _ => none

/-- The vector operator of a code. -/
def vectorOperator? : Opcode → Option VectorOperator
  | vecAdd => some .add
  | vecSub => some .sub
  | vecScalMult => some .scaleRight
  | scalVecMult => some .scaleLeft
  | vecVecMult => some .dot
  | vecScalDiv => some .divide
  | _ => none

end Opcode

/-- The code of a comparison. -/
def Comparison.opcode : Comparison → Opcode
  | greater => .greater
  | less => .less
  | greaterEqual => .greaterEqual
  | lessEqual => .lessEqual
  | equal => .equal

/-- The code of a boolean operator. -/
def Logical.opcode : Logical → Opcode
  | and => .and
  | or => .or

/-- The code of an arithmetic operator. -/
def Arithmetical.opcode : Arithmetical → Opcode
  | add => .add
  | sub => .sub
  | mul => .mult
  | div => .div

/-- The code of a scalar operator. -/
def Operator.opcode : Operator → Opcode
  | arithmetical operator => operator.opcode
  | comparison operator => operator.opcode
  | logical operator => operator.opcode
  | not => .not

/-- The code of a vector operator. -/
def VectorOperator.opcode : VectorOperator → Opcode
  | add => .vecAdd
  | sub => .vecSub
  | scaleRight => .vecScalMult
  | scaleLeft => .scalVecMult
  | dot => .vecVecMult
  | divide => .vecScalDiv

/-- The arithmetic that a vector operator does component by component. -/
def VectorOperator.componentwise : VectorOperator → Arithmetical
  | add => .add
  | sub => .sub
  | divide => .div
  | _ => .mul

/-- The number of operands of a scalar operator. -/
def Operator.operands : Operator → Nat
  | not => 1
  | _ => 2

/-- The width of the result of a vector operator, by the widths of its operands. -/
def VectorOperator.resultWidth (operator : VectorOperator) (left right : Nat) : Nat :=
  match operator with
  | dot => 1
  | scaleRight => left
  | divide => left
  | scaleLeft => right
  | add => max left right
  | sub => max left right

theorem Opcode.operator?_opcode (operator : Operator) :
    operator.opcode.operator? = some operator := by
  cases operator with
  | arithmetical operator => cases operator <;> rfl
  | comparison operator => cases operator <;> rfl
  | logical operator => cases operator <;> rfl
  | not => rfl

theorem Opcode.vectorOperator?_opcode (operator : VectorOperator) :
    operator.opcode.vectorOperator? = some operator := by
  cases operator <;> rfl

end Formulary
