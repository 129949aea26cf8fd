import Formulary.Arithmetic
import Formulary.Bessel

/-!
# Arithmetic on doubles

The real domain. Operations are those of doubles, each rounded by itself. A complex input is
refused; a complex constant or cell counts for its real part, or for zero when its imaginary part
is not zero.
-/

namespace Formulary.Arithmetic

/-- The sign of a double as a double; both zeros have the sign zero. -/
def realSign (value : Float) : Float :=
  if value.isNaN then value else if 0 < value then 1 else if value < 0 then -1 else 0

/-- The unit step, which is one at zero. -/
def realStep (value : Float) : Float :=
  if value.isNaN then value else if value < 0 then 0 else 1

/-- The builtin functions of one double. -/
def realUnary : Builtin → Float → Float
  | .sin => Float.sin
  | .cos => Float.cos
  | .tan => Float.tan
  | .atan => Float.atan
  | .atan2 => id
  | .exp => Float.exp
  | .log => Float.log
  | .abs => Float.abs
  | .sign => realSign
  | .sqrt => Float.sqrt
  | .step => realStep
  | .besselJ0 => Bessel.real .first .zero
  | .besselY0 => Bessel.real .second .zero
  | .besselJ1 => Bessel.real .first .one
  | .besselY1 => Bessel.real .second .one

/-- The builtin functions of doubles. -/
def realCall (function : Builtin) (values : List Float) : Float :=
  match function, values with
  | .atan2, [up, across] => Float.atan2 up across
  | function, [value] => realUnary function value
  | _, _ => 0

/-- The double of an input. -/
def realInput : Number → Except Fault Float
  | .int value => Tolerance.doubleOfInt value
  | .real value => .ok value
  | .complex _ => .error .notReal

/-- The double of a constant or cell. -/
def realStored : Number → Except Fault (Float × Bool)
  | .int value => (Tolerance.doubleOfInt value).map fun found => (found, false)
  | .real value => .ok (value, false)
  | .complex value => if value.im != 0 then .ok (0, true) else .ok (value.re, false)

/-- Arithmetic on doubles. -/
def real : Arithmetic Float where
  zero := 0
  truth _ flag := if flag then 1 else 0
  add left right := left + right
  sub left right := left - right
  mul left right := left * right
  div left right := left / right
  neg value := -value
  call := realCall
  isImaginary _ := false
  realPart value := value
  isNegative value := value < 0
  exceeds := Tolerance.isExceeded
  within value := Tolerance.isKept value.abs
  input := realInput
  stored := realStored
  output := .real

end Formulary.Arithmetic
