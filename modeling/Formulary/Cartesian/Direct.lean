import Formulary.Cartesian.Elementary

/-!
# Complex functions by their formulas

The same functions as in `Formulary.Cartesian.Elementary`, put together from real functions of the
parts without a case for every infinite or undefined part. Where all parts are finite the values
agree. Elsewhere the formulas decide: an undefined part makes the modulus undefined, an infinite
part has no direction, and a zero counts as positive where its sign would choose a side.

Quotients are the exception. A quotient whose parts both come out undefined is repaired when the
divisor is zero, or when just one of the operands is infinite.
-/

namespace Formulary.Cartesian.Direct

open Formulary.Binary64 (copySign infinity nan)

/-- Whether a part is not a number. -/
def isUndefined (value : Cartesian) : Bool := value.re.isNaN || value.im.isNaN

/-- Whether a part is infinite. -/
def isInfinite (value : Cartesian) : Bool := value.re.isInf || value.im.isInf

/-- Whether both parts are finite. -/
def isFinite (value : Cartesian) : Bool := value.re.isFinite && value.im.isFinite

/-- A part as a direction: a unit of its sign if it is infinite, and a zero of its sign if not. -/
def unitOfInfinity (part : Float) : Float := copySign (if part.isInf then 1 else 0) part

/-- The quotient by the larger part of the divisor. -/
def plainQuotient (left right : Cartesian) : Cartesian :=
  if right.re.abs < right.im.abs then
    let ratio := right.re / right.im
    let divisor := right.im + ratio * right.re
    ⟨(ratio * left.re + left.im) / divisor, (ratio * left.im - left.re) / divisor⟩
  else
    let ratio := right.im / right.re
    let divisor := right.re + ratio * right.im
    ⟨(ratio * left.im + left.re) / divisor, (left.im - ratio * left.re) / divisor⟩

/-- The quotient where its plain form is undefined. -/
def repairedQuotient (left right : Cartesian) : Cartesian :=
  if right.re == 0 && right.im == 0 then scale (copySign infinity right.re) left
  else if isInfinite left && isFinite right then
    let across := unitOfInfinity left.re
    let up := unitOfInfinity left.im
    scale infinity ⟨across * right.re + up * right.im, up * right.re - across * right.im⟩
  else if isFinite left && isInfinite right then
    let across := unitOfInfinity right.re
    let up := unitOfInfinity right.im
    scale 0 ⟨left.re * across + left.im * up, left.im * across - left.re * up⟩
  else ⟨nan, nan⟩

/-- The quotient. -/
def div (left right : Cartesian) : Cartesian :=
  let plain := plainQuotient left right
  if plain.re.isNaN && plain.im.isNaN then repairedQuotient left right else plain

/-- The modulus. -/
def modulus (value : Cartesian) : Float :=
  if isUndefined value then nan else value.modulus

/-- The unit in the direction of a complex number: its parts over its modulus. -/
def direction (value : Cartesian) : Cartesian :=
  let length := modulus value
  if length == 0 then ⟨0, 0⟩ else ⟨value.re / length, value.im / length⟩

/-- The logarithm of the modulus, and the angle. -/
def log (value : Cartesian) : Cartesian :=
  ⟨if isUndefined value then nan else value.logModulus, Float.atan2 value.im value.re⟩

/-- The exponential function. A large growth is taken in two halves. -/
def exp (value : Cartesian) : Cartesian :=
  let whole := value.re.exp
  let half := (value.re * 0.5).exp
  let grown := fun (factor : Float) =>
    if whole == infinity then half * factor * half else whole * factor
  ⟨grown value.im.cos, if value.im == 0 then 0 else grown value.im.sin⟩

/-- The hyperbolic cosine of a part, infinite as soon as the exponential is. -/
def partCosh (part : Float) : Float :=
  if part.abs.exp == infinity then infinity else part.cosh

/-- The hyperbolic sine of a part, infinite as soon as the exponential is. -/
def partSinh (part : Float) : Float :=
  if part.abs.exp == infinity then copySign infinity part else part.sinh

/-- The sine. On the imaginary axis its real part is zero. -/
def sin (value : Cartesian) : Cartesian :=
  ⟨if value.re == 0 then 0 else value.re.sin * partCosh value.im,
    value.re.cos * partSinh value.im⟩

/-- The cosine. On the imaginary axis its imaginary part is zero. -/
def cos (value : Cartesian) : Cartesian :=
  ⟨value.re.cos * partCosh value.im,
    if value.re == 0 then 0 else -value.re.sin * partSinh value.im⟩

/-- The tangent. Far from the real axis it is a unit on the imaginary axis. -/
def tan (value : Cartesian) : Cartesian :=
  if isFinite value then value.tan
  else if value.im.isInf then ⟨0, copySign 1 value.im⟩
  else if value.re == 0 then ⟨0, nan⟩
  else ⟨nan, nan⟩

/-- Where the arc tangent leaves its formula for its limit: half the root of the largest double. -/
def arcLimit : Float := 6.703903964971298e153

/-- The arc tangent. Beyond the limit, and where a part is undefined, the real part is a right
angle. -/
def atan (value : Cartesian) : Cartesian :=
  if value.re.abs < arcLimit && value.im.abs < arcLimit then value.atan
  else
    ⟨if 0 ≤ value.re then pi / 2 else -pi / 2,
      if isInfinite value then 0 else if isUndefined value then nan else value.atan.im⟩

/-- The principal square root. A zero imaginary part counts as positive. -/
def sqrt (value : Cartesian) : Cartesian :=
  if isUndefined value then ⟨nan, nan⟩
  else
    let root := Cartesian.sqrt ⟨value.re, value.im.abs⟩
    ⟨root.re, if value.im < 0 then -root.im else root.im⟩

/-- The angle of the point `(across, up)`, continued to complex coordinates. -/
def angle (up across : Cartesian) : Cartesian :=
  let radius := sqrt (across * across + up * up)
  ⟨-0.0, -1⟩ * log (div (across + unit * up) radius)

end Formulary.Cartesian.Direct
