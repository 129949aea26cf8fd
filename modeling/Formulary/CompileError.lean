import Formulary.Token

/-!
# Compile errors

A compile error has a cause and the span of the source text that it blames. Its message, the kinds
of tokens that would have been accepted, and what was found instead, all follow from the cause.
-/

namespace Formulary

/-- What an operand has to be a scalar for. -/
inductive Role
  | logical (operator : Logical)
  | negation
  | comparison (operator : Comparison)
  | argument (function : Builtin)
  deriving DecidableEq, Repr

/-- The name of a role in diagnostics. -/
def Role.describe : Role → String
  | logical operator => Text.quoted operator.opcode.text
  | negation => Text.quoted Opcode.not.text
  | comparison operator => s!"comparison {Text.quoted operator.opcode.text}"
  | argument function => s!"function {Text.quoted function.name}"

/-- Why a formula does not compile. -/
inductive Cause
  | nonAsciiByte (offset : Nat) (byte : UInt8)
  | unexpectedCharacter (character : Char)
  | malformedNumber (text : List Char)
  | unknownName (name : String)
  | unexpectedToken (found : Token) (expected : List Kind)
  | vectorOperand (role : Role) (width : Nat) (blamed : Token)
  | vectorDivisor (width : Nat) (blamed : Token)
  | wrongArity (function : Builtin) (given : Nat)

/-- A cause with the span `[start, stop)` that it blames. -/
structure CompileError where
  cause : Cause
  start : Nat
  stop : Nat

namespace Cause

/-- What is wrong. -/
def message : Cause → String
  | nonAsciiByte offset _ => s!"Non-ASCII byte in formula source at offset {offset}"
  | unexpectedCharacter character =>
    s!"Unexpected character {Text.quoted (String.singleton character)}"
  | malformedNumber text => s!"Invalid numeric literal {Text.quoted (String.ofList text)}"
  | unknownName name => s!"Unknown identifier {Text.quoted name}"
  | unexpectedToken found _ =>
    if found.kind = .finish then "Unexpected end of input" else "Unexpected token"
  | vectorOperand role width _ =>
    s!"{role.describe} requires scalar operands, got vector of width {width}"
  | vectorDivisor width _ => s!"Division by vector-valued operand of width {width}"
  | wrongArity function given =>
    s!"Function {Text.quoted function.name} takes {function.arity} argument(s), got {given}"

/-- The kinds of tokens that would have been accepted. -/
def expected : Cause → List Kind
  | unexpectedToken _ expected => expected
  | _ => []

/-- What was found. -/
def found : Cause → String
  | nonAsciiByte _ byte => Text.quotedByte byte
  | unexpectedCharacter character => Text.quoted (String.singleton character)
  | malformedNumber text => String.ofList text
  | unknownName name => s!"NAME({name})"
  | unexpectedToken found _ => found.describe
  | vectorOperand _ _ blamed => blamed.describe
  | vectorDivisor _ blamed => blamed.describe
  | wrongArity _ given => s!"{given} argument(s)"

end Cause

namespace CompileError

/-- An error that blames a token. -/
def atToken (cause : Cause) (token : Token) : CompileError :=
  ⟨cause, token.start, token.stop⟩

/-- The error at a token that cannot stand where it does. -/
def unexpected (found : Token) (expected : List Kind) : CompileError :=
  atToken (.unexpectedToken found expected) found

/-- The whole error in one line. -/
def describe (error : CompileError) : String :=
  let expected := error.cause.expected.map Kind.label
  let expectedText := if expected = [] then "" else "; expected " ++ ", ".intercalate expected
  s!"{error.cause.message} at span [{error.start}, {error.stop})" ++ expectedText
    ++ s!"; found {error.cause.found}"

end CompileError

end Formulary
