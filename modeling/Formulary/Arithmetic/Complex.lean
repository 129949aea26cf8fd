import Formulary.Arithmetic.Real

/-!
# Arithmetic on complex numbers

The complex domain. Every number has a scalar here unless it is a whole number beyond the range of
doubles. Functions with real results give them with an imaginary part of zero.
-/

namespace Formulary.Arithmetic

/-- The builtin functions of one complex number. -/
def complexUnary : Builtin → Cartesian → Cartesian
  | .sin => Cartesian.sin
  | .cos => Cartesian.cos
  | .tan => Cartesian.tan
  | .atan => Cartesian.atan
  | .atan2 => id
  | .exp => Cartesian.exp
  | .log => Cartesian.log
  | .abs => fun value => .ofReal value.modulus
  | .sign => Cartesian.direction
  | .sqrt => Cartesian.sqrt
  | .step => fun value => .ofReal (realStep value.re)
  | .besselJ0 => Bessel.complex .first .zero
  | .besselY0 => Bessel.complex .second .zero
  | .besselJ1 => Bessel.complex .first .one
  | .besselY1 => Bessel.complex .second .one

/-- The builtin functions of complex numbers. -/
def complexCall (function : Builtin) (values : List Cartesian) : Cartesian :=
  match function, values with
  | .atan2, [up, across] => Cartesian.angle up across
  | function, [value] => complexUnary function value
  | _, _ => .ofReal 0

/-- The complex number of a number. -/
def complexInput : Number → Except Fault Cartesian
  | .int value => (Tolerance.doubleOfInt value).map .ofReal
  | .real value => .ok (.ofReal value)
  | .complex value => .ok value

/-- Arithmetic on complex numbers. -/
def complex : Arithmetic Cartesian where
  zero := .ofReal 0
  truth _ flag := .ofReal (if flag then 1 else 0)
  add := Cartesian.add
  sub := Cartesian.sub
  mul := Cartesian.mul
  div := Cartesian.div
  neg := Cartesian.neg
  call := complexCall
  isImaginary value := value.im != 0
  realPart value := .ofReal value.re
  isNegative value := value.re < 0
  exceeds value := Tolerance.isExceeded value.re
  within value := Tolerance.isKept value.re.abs
  input := complexInput
  stored number := (complexInput number).map fun value => (value, false)
  output := .complex

end Formulary.Arithmetic

namespace Formulary

/-- The two domains in which a program runs. -/
inductive Domain
  | real
  | complex
  deriving DecidableEq, Repr

namespace Domain

/-- The name of a domain. -/
def name : Domain → String
  | real => "real"
  | complex => "complex"

/-- The scalars of a domain. -/
def Scalar : Domain → Type
  | real => Float
  | complex => Cartesian

/-- The arithmetic of a domain. -/
def arithmetic : (domain : Domain) → Arithmetic domain.Scalar
  | real => Arithmetic.real
  | complex => Arithmetic.complex

/-- A number as an entry of a result in a domain: a double, or a complex number. -/
def entry (domain : Domain) (value : Number) : Number :=
  match domain with
  | real => .real value.toFloat
  | complex => .complex value.toCartesian

end Domain

end Formulary
