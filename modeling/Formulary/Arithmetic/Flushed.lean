import Formulary.Arithmetic.Complex
import Formulary.Cartesian.Direct

/-!
# Arithmetic without subnormal numbers

The arithmetic of kernels. Operations take a subnormal operand for zero and give zero for a
subnormal result; a value that is only passed on, or changes its sign, stays as it is. The
complex functions are those that are put together from real functions of the parts.

A tolerance has to be a double here, or a whole number of 64 bits, or complex.
-/

namespace Formulary.Arithmetic.Flushed

open Formulary.Binary64 (copySign flush)

/-- Whether a double is greater than a tolerance. -/
def isExceeded (value : Float) : (tolerance : Number) → Except Fault Bool
  | .int bound =>
    if bound.toInt64.toInt = bound then .ok (Binary64.ofInt bound < flush value)
    else .error .tooLarge
  | .real bound => .ok (flush bound < flush value)
  | .complex bound =>
    if flush value == flush bound.re then .ok (flush bound.im < 0)
    else .ok (flush bound.re < flush value)

/-- Whether a double is at most a tolerance. -/
def isKept (value : Float) : (tolerance : Number) → Except Fault Bool
  | .int bound =>
    if bound.toInt64.toInt = bound then .ok (flush value ≤ Binary64.ofInt bound)
    else .error .tooLarge
  | .real bound => .ok (flush value ≤ flush bound)
  | .complex bound =>
    if flush value == flush bound.re then .ok (0 ≤ flush bound.im)
    else .ok (flush value ≤ flush bound.re)

/-! ## Doubles -/

/-- The sign of a double as a double; a zero is its own sign. -/
def realSign (value : Float) : Float :=
  if value.isNaN then value else copySign (if value == 0 then 0 else 1) value

/-- The builtin functions of doubles. -/
def realCall (function : Builtin) (values : List Float) : Float :=
  match function, values with
  | .abs, [value] => value.abs
  | .sign, [value] => realSign (flush value)
  | function, values => flush (Arithmetic.realCall function (values.map flush))

/-- The double of a constant or cell. -/
def realStored : Number → Except Fault (Float × Bool)
  | .complex value => if flush value.im != 0 then .ok (0, true) else .ok (value.re, false)
  | number => Arithmetic.realStored number

/-- Arithmetic on doubles. -/
def real : Arithmetic Float :=
  { Arithmetic.real with
    add := fun left right => flush (flush left + flush right)
    sub := fun left right => flush (flush left - flush right)
    mul := fun left right => flush (flush left * flush right)
    div := fun left right => flush (flush left / flush right)
    call := realCall
    isNegative := fun value => flush value < 0
    exceeds := isExceeded
    within := fun value => isKept value.abs
    stored := realStored }

/-! ## Complex numbers -/

/-- A complex number without the subnormal parts. -/
def flushParts (value : Cartesian) : Cartesian := ⟨flush value.re, flush value.im⟩

/-- An operation on complex numbers without subnormal parts. -/
def flushed (operation : Cartesian → Cartesian → Cartesian) (left right : Cartesian) : Cartesian :=
  flushParts (operation (flushParts left) (flushParts right))

/-- The builtin functions of one complex number. -/
def complexUnary : Builtin → Cartesian → Cartesian
  | .sin => Cartesian.Direct.sin
  | .cos => Cartesian.Direct.cos
  | .tan => Cartesian.Direct.tan
  | .atan => Cartesian.Direct.atan
  | .exp => Cartesian.Direct.exp
  | .log => Cartesian.Direct.log
  | .abs => fun value => .ofReal (Cartesian.Direct.modulus value)
  | .sign => Cartesian.Direct.direction
  | .sqrt => Cartesian.Direct.sqrt
  | function => Arithmetic.complexUnary function

/-- The builtin functions of complex numbers. -/
def complexCall (function : Builtin) (values : List Cartesian) : Cartesian :=
  match function, values with
  | .atan2, [up, across] => flushed Cartesian.Direct.angle up across
  | function, [value] => flushParts (complexUnary function (flushParts value))
  | _, _ => .ofReal 0

/-- Arithmetic on complex numbers. -/
def complex : Arithmetic Cartesian :=
  { Arithmetic.complex with
    add := flushed Cartesian.add
    sub := flushed Cartesian.sub
    mul := flushed Cartesian.mul
    div := flushed Cartesian.Direct.div
    call := complexCall
    isImaginary := fun value => flush value.im != 0
    isNegative := fun value => flush value.re < 0
    exceeds := fun value => isExceeded value.re
    within := fun value => isKept value.re.abs }

end Formulary.Arithmetic.Flushed

namespace Formulary.Domain

/-- The arithmetic of kernels in a domain. -/
def flushedArithmetic : (domain : Domain) → Arithmetic domain.Scalar
  | real => Arithmetic.Flushed.real
  | complex => Arithmetic.Flushed.complex

end Formulary.Domain
