import Formulary.Expression.Parse
import Formulary.Source
import Formulary.Token.Lexer

/-!
# Compiling a formula

A source is scanned, read and turned into a program with its result type.
-/

namespace Formulary

/-- A compiled formula. -/
structure Compiled where
  program : Program
  resultType : ResultType

/-- Why a source gives no program. The step error is never met: the code of an expression takes
only what its operands left. -/
inductive CompileFailure
  | source (error : SourceError)
  | step (error : StepError)

/-- The expression of a text. -/
def readExpression (scope : Scope) (text : String) : Except CompileError Expression := do
  let tokens ← tokenize scope text
  Expression.parse text.length tokens

/-- The program and the result type of a text. -/
def compileText (scope : Scope) (text : String) : Except CompileFailure Compiled :=
  match readExpression scope text with
  | .error error => .error (.source (.compile error))
  | .ok expression =>
    match Program.ofSteps expression.code with
    | .error error => .error (.step error)
    | .ok program => .ok ⟨program, expression.resultType⟩

/-- The program and the result type of a source. -/
def compile (scope : Scope) (source : Source) : Except CompileFailure Compiled :=
  match source.read with
  | .error error => .error (.source error)
  | .ok text => compileText scope text

end Formulary
