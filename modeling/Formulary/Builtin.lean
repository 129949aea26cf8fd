import Formulary.Text.Quoted

/-!
# Builtin functions

The functions that every formula may call, with their names and the number of their arguments.
-/

namespace Formulary

/-- A builtin function. -/
inductive Builtin
  | sin
  | cos
  | tan
  | atan
  | atan2
  | exp
  | log
  | abs
  | sign
  | sqrt
  | step
  | besselJ0
  | besselY0
  | besselJ1
  | besselY1
  deriving DecidableEq, Repr

namespace Builtin

/-- All builtin functions. -/
def all : List Builtin :=
  [sin, cos, tan, atan, atan2, exp, log, abs, sign, sqrt, step, besselJ0, besselY0, besselJ1,
    besselY1]

theorem mem_all (function : Builtin) : function ∈ all := by
  cases function <;> decide

/-- The name by which formulas call the function. -/
def name : Builtin → String
  | sin => "sin"
  | cos => "cos"
  | tan => "tan"
  | atan => "atan"
  | atan2 => "atan2"
  | exp => "exp"
  | log => "log"
  | abs => "abs"
  | sign => "sign"
  | sqrt => "sqrt"
  | step => "step"
  | besselJ0 => "besselj0"
  | besselY0 => "bessely0"
  | besselJ1 => "besselj1"
  | besselY1 => "bessely1"

/-- The number of arguments. -/
def arity : Builtin → Nat
  | atan2 => 2
  | _ => 1

theorem arity_pos (function : Builtin) : 0 < function.arity := by
  cases function <;> decide

/-- The function of a name among the given ones. -/
def find? (functions : List Builtin) (name : String) : Option Builtin :=
  functions.find? fun function => function.name == name

/-- A description of the function. -/
def describe (function : Builtin) : String :=
  s!"BuiltinFunction({Text.quoted function.name}, arity={function.arity})"

end Builtin

end Formulary
