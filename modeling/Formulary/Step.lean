import Formulary.Builtin
import Formulary.Opcode
import Formulary.Symbols

/-!
# Steps of a program

A program is a sequence of steps in reverse-Polish order. Each step takes a fixed number of values
from the top of the stack and leaves a fixed number there. What a host asks for is checked when a
step is made, so every step has a positive slot and positive operand widths; the width of a
negation is free.
-/

namespace Formulary

/-- A step of a program. -/
inductive Step
  | constant (value : Constant)
  | argument (slot : Positive)
  | external (cell : Cell)
  | call (function : Builtin)
  | negate (width : Int)
  | operator (operator : Operator)
  | vector (operator : VectorOperator) (left right : Positive)

/-- Why a step cannot be made, or does not fit where it stands in a program. -/
inductive StepError
  | slot (given : Int)
  | unknownCode (text : String)
  | notScalar (code : Opcode)
  | notVector (code : Opcode)
  | operandWidth
  | finish
  | unknownFunction (name : String)
  | underflow (index : Nat) (code : Opcode) (pops : Int) (height : Nat)
  deriving DecidableEq, Repr

/-- What is said about a step that cannot be made. -/
def StepError.message : StepError → String
  | slot given => s!"argument slots are 1-based, got {given}"
  | unknownCode text => s!"{Text.quoted text} is not a valid Opcode"
  | notScalar code => s!"{code.describe} is not a scalar operator opcode"
  | notVector code => s!"{code.describe} is not a vector operator opcode"
  | operandWidth => "vector operand widths must be >= 1"
  | finish => "END terminates a program implicitly and cannot be appended"
  | unknownFunction name => s!"Unknown builtin function {Text.quoted name}"
  | underflow index code pops height =>
    s!"step {index} ({code.text}) pops {pops} values from a stack of {height}"

namespace Step

/-- The step that pushes a slot. -/
def ofSlot (slot : Int) : Except StepError Step :=
  match positive? slot with
  | some slot => .ok (argument slot)
  | none => .error (.slot slot)

/-- The code that a text stands for, or an error. -/
def codeOfText (text : String) : Except StepError Opcode :=
  match Opcode.ofText? text with
  | some code => .ok code
  | none => .error (.unknownCode text)

/-- The scalar operator step of a code. -/
def ofScalarCode (code : Opcode) : Except StepError Step :=
  match code.operator? with
  | some found => .ok (operator found)
  | none => .error (.notScalar code)

/-- The vector operator step of a code with its operand widths; the code is checked first. -/
def ofVectorCode (code : Opcode) (left right : Int) : Except StepError Step :=
  match code.vectorOperator? with
  | none => .error (.notVector code)
  | some found =>
    match positive? left, positive? right with
    | some left, some right => .ok (vector found left right)
    | _, _ => .error .operandWidth

/-- The step that a host appends by a code: a vector operator with both widths, a negation with
the first, or a scalar operator. -/
def ofCode (code : Opcode) (left right : Int) : Except StepError Step :=
  match code.vectorOperator? with
  | some _ => ofVectorCode code left right
  | none =>
    match code with
    | .neg => .ok (negate left)
    | .finish => .error .finish
    | _ => ofScalarCode code

/-- The operation code of a step. -/
def opcode : Step → Opcode
  | constant _ => .constant
  | argument _ => .argument
  | external _ => .external
  | call _ => .function
  | negate _ => .neg
  | operator found => found.opcode
  | vector found _ _ => found.opcode

/-- The number of values that a step takes from the stack. -/
def pops : Step → Int
  | constant _ | argument _ | external _ => 0
  | call function => function.arity
  | negate width => width
  | operator found => found.operands
  | vector _ left right => left.val + right.val

/-- The number of values that a step leaves on the stack. -/
def pushes : Step → Int
  | negate width => width
  | vector found left right => found.resultWidth left.val right.val
  | _ => 1

/-- Whether two steps are the same. -/
def same : Step → Step → Bool
  | constant left, constant right => left.same right
  | argument left, argument right => left == right
  | external left, external right => left == right
  | call left, call right => left == right
  | negate left, negate right => left == right
  | operator left, operator right => left == right
  | vector left leftFirst leftSecond, vector right rightFirst rightSecond =>
    left == right && leftFirst == rightFirst && leftSecond == rightSecond
  | _, _ => false

end Step

end Formulary
