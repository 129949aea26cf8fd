import Formulary.Binary64
import Formulary.Cartesian

/-!
# Elementary functions of a complex number

The functions are continuous up to their branch cuts from the side that the sign of a zero part
names: the logarithm and the square root are cut along the negative real axis, the arc tangent
along the imaginary axis outside the unit interval. Each part is computed to nearly full accuracy
of its own, also where the parts differ widely in size.
-/

namespace Formulary.Cartesian

open Formulary.Binary64 (copySign infinity largest nan)

/-- The ratio of a circle's circumference to its diameter. -/
def pi : Float := 3.141592653589793

/-- The length of the hypotenuse over two sides with `short ≤ long` of moderate size. The rounded
root is corrected by the exact defect of its square. -/
def hypotenuse (long short : Float) : Float :=
  let root := (long * long + short * short).sqrt
  if root ≤ 2 * short then
    let excess := root - short
    let first := long * (2 * excess - long)
    let second := (excess - 2 * (long - short)) * excess
    root - (first + second) / (2 * root)
  else
    let excess := root - long
    let first := 2 * excess * (long - 2 * short)
    let second := (4 * excess - short) * short + excess * excess
    root - (first + second) / (2 * root)

/-- The modulus. An infinite part makes it infinite, whatever the other part is. -/
def modulus (value : Cartesian) : Float :=
  let first := value.re.abs
  let second := value.im.abs
  if first == infinity || second == infinity then infinity
  else if first.isNaN || second.isNaN then nan
  else
    let long := if first < second then second else first
    let short := if first < second then first else second
    if short ≤ long * Float.scaleB 1 (-54) then long + short
    else if Float.scaleB 1 511 < long then
      Float.scaleB (hypotenuse (Float.scaleB long (-600)) (Float.scaleB short (-600))) 600
    else if short < Float.scaleB 1 (-459) then
      Float.scaleB (hypotenuse (Float.scaleB long 600) (Float.scaleB short 600)) (-600)
    else hypotenuse long short

/-- `log (1 + value)`, accurate for small values too. -/
def logOnePlus (value : Float) : Float :=
  if 1 < value then (1 + value).log else 2 * Float.atanh (value / (2 + value))

/-- A sum and the rounding error of the sum. -/
def exactSum (left right : Float) : Float × Float :=
  let sum := left + right
  let rightPart := sum - left
  (sum, (left - (sum - rightPart)) + (right - rightPart))

/-- A square and the rounding error of the square, by splitting the factor in two halves. -/
def exactSquare (value : Float) : Float × Float :=
  let square := value * value
  let wide := 134217729 * value
  let high := wide - (wide - value)
  let low := value - high
  (square, ((high * high - square) + 2 * high * low) + low * low)

/-- The square of the modulus less one, accurate near the unit circle. -/
def modulusDefect (long short : Float) : Float :=
  let longSquare := exactSquare long
  let shortSquare := exactSquare short
  let less := exactSum longSquare.1 (-1)
  let total := exactSum less.1 shortSquare.1
  total.1 + (less.2 + total.2 + longSquare.2 + shortSquare.2)

/-- The logarithm of the modulus. -/
def logModulus (value : Cartesian) : Float :=
  let first := value.re.abs
  let second := value.im.abs
  if first == infinity || second == infinity then infinity
  else if first.isNaN || second.isNaN then nan
  else
    let long := if first < second then second else first
    let short := if first < second then first else second
    if long == 0 then -infinity
    else if 0.6 < long && long < 1.5 && long * long + short * short < 2.25 then
      0.5 * logOnePlus (modulusDefect long short)
    else
      let ratio := short / long
      long.log + 0.5 * logOnePlus (ratio * ratio)

/-- The principal logarithm. -/
def log (value : Cartesian) : Cartesian :=
  ⟨value.logModulus, Float.atan2 value.im value.re⟩

/-- The growth of one stride: the largest whole number with a finite exponential. -/
def stride : Float := 709

/-- `exp growth * factor`. Where the exponential is too large the growth is taken in up to three
strides, so that a small factor still gives a finite result. -/
def expTimes (growth factor : Float) : Float :=
  if stride < growth then
    let once := factor * stride.exp
    let rest := growth - stride
    if stride < rest then
      let twice := once * stride.exp
      let last := rest - stride
      if stride < last then largest * twice else last.exp * twice
    else rest.exp * once
  else growth.exp * factor

/-- The exponential function. -/
def exp (value : Cartesian) : Cartesian :=
  if value.im == 0 then ⟨value.re.exp, value.im⟩
  else if value.re == infinity && !value.im.isFinite then ⟨infinity, nan⟩
  else if value.re == -infinity && !value.im.isFinite then ⟨0, copySign 0 value.im⟩
  else ⟨expTimes value.re value.im.cos, expTimes value.re value.im.sin⟩

/-- `exp growth / 2 * factor` for a growth beyond one stride. -/
def halfExpTimes (growth factor : Float) : Float :=
  expTimes (growth - stride) (factor * (stride.exp / 2))

/-- `cosh growth * factor`. -/
def coshTimes (growth factor : Float) : Float :=
  if stride < growth.abs then halfExpTimes growth.abs factor else growth.cosh * factor

/-- `sinh growth * factor`. -/
def sinhTimes (growth factor : Float) : Float :=
  if stride < growth.abs then halfExpTimes growth.abs (if growth < 0 then -factor else factor)
  else growth.sinh * factor

/-- The hyperbolic sine. Where a part is infinite and has no direction its sign is free; it is
chosen so that the sine has a positive one. -/
def sinh (value : Cartesian) : Cartesian :=
  let endless := !value.re.isFinite && !value.re.isNaN && !value.im.isFinite
  { re :=
      if value.re == 0 then if value.im.isFinite then value.re * value.im.cos else value.re
      else if value.im == 0 then value.re.sinh
      else if endless then -infinity
      else sinhTimes value.re value.im.cos
    im :=
      if value.im == 0 then value.im
      else if endless then nan
      else coshTimes value.re value.im.sin }

/-- The hyperbolic cosine. -/
def cosh (value : Cartesian) : Cartesian :=
  let endless := !value.re.isFinite && !value.re.isNaN && !value.im.isFinite
  { re :=
      if value.im == 0 then value.re.cosh
      else if endless then infinity
      else coshTimes value.re value.im.cos
    im :=
      if value.re == 0 && !value.im.isFinite then 0
      else if value.im == 0 && value.re.isNaN then value.im
      else if value.im == 0 && !value.re.isFinite then value.im * copySign 1 value.re
      else if endless then nan
      else sinhTimes value.re value.im.sin }

/-- The hyperbolic tangent, after Kahan. Far from the imaginary axis the real part is a unit and
the imaginary part fades exponentially. -/
def tanh (value : Cartesian) : Cartesian :=
  if !value.re.isFinite && !value.re.isNaN then
    ⟨copySign 1 value.re, copySign 0 (if value.im.isFinite then (2 * value.im).sin else value.im)⟩
  else if value.re.isNaN then ⟨nan, if value.im == 0 then value.im else nan⟩
  else if !value.im.isFinite then ⟨if value.re == 0 then value.re else nan, nan⟩
  else if 22 ≤ value.re.abs then
    let fade := (-value.re.abs).exp
    ⟨copySign 1 value.re, 4 * value.im.sin * value.im.cos * fade * fade⟩
  else
    let tangent := value.im.tan
    let slope := 1 + tangent * tangent
    let sine := value.re.sinh
    let cosine := (1 + sine * sine).sqrt
    let denominator := 1 + slope * sine * sine
    ⟨slope * cosine * sine / denominator, tangent / denominator⟩

/-- A complex number times the imaginary unit, by turning the parts. -/
def turn (value : Cartesian) : Cartesian := ⟨-value.im, value.re⟩

/-- A complex number over the imaginary unit, by turning the parts back. -/
def turnBack (value : Cartesian) : Cartesian := ⟨value.im, -value.re⟩

/-- The sine: the hyperbolic sine of the turned number, turned back. -/
def sin (value : Cartesian) : Cartesian := value.turn.sinh.turnBack

/-- The cosine: the hyperbolic cosine of the turned number. -/
def cos (value : Cartesian) : Cartesian := value.turn.cosh

/-- The tangent: the hyperbolic tangent of the turned number, turned back. -/
def tan (value : Cartesian) : Cartesian := value.turn.tanh.turnBack

/-- The arc tangent. -/
def atan (value : Cartesian) : Cartesian :=
  let across := value.re.abs
  let along := value.im.abs
  if across == infinity || along == infinity then
    ⟨if value.re.isNaN then nan else copySign (pi / 2) value.re, copySign 0 value.im⟩
  else if across.isNaN || along.isNaN then
    ⟨nan, if value.im == 0 then value.im else nan⟩
  else if 1e16 < across || 1e16 < along then
    let inverse := ofReal 1 / value
    ⟨copySign (pi / 2) value.re - inverse.re, copySign inverse.im value.im⟩
  else
    let above := 1 + along
    let below := 1 - along
    let real := 0.5 * Float.atan2 (2 * across) (above * below - across * across)
    let imaginary :=
      if below == 0 && across < 1e-100 then 0.5 * (Float.log 2 - across.log)
      else 0.25 * logOnePlus (4 * along / (across * across + below * below))
    ⟨copySign real value.re, copySign imaginary value.im⟩

/-- The principal square root. -/
def sqrt (value : Cartesian) : Cartesian :=
  if value.re == 0 && value.im == 0 then ⟨0, value.im⟩
  else if value.im.abs == infinity then ⟨infinity, value.im⟩
  else if value.re == 0 then
    let part :=
      if Float.scaleB 1 (-1021) ≤ value.im.abs then (0.5 * value.im.abs).sqrt
      else 0.5 * (2 * value.im.abs).sqrt
    ⟨part, copySign part value.im⟩
  else if value.re.isNaN then ⟨nan, nan⟩
  else if value.re == infinity then
    ⟨infinity, if value.im.isNaN then nan else copySign 0 value.im⟩
  else if value.re == -infinity then
    ⟨if value.im.isNaN then nan else 0, copySign infinity value.im⟩
  else if value.im.isNaN then ⟨nan, nan⟩
  else
    let largest := if value.re.abs < value.im.abs then value.im.abs else value.re.abs
    let shift : Int := if 1e300 < largest then 4 else if largest < 1e-290 then -120 else 0
    let scaled : Cartesian := ⟨Float.scaleB value.re (-shift), Float.scaleB value.im (-shift)⟩
    let root := ((scaled.re.abs + scaled.modulus) * 0.5).sqrt
    let other := scaled.im.abs / (2 * root)
    let unscale := fun (part : Float) => Float.scaleB part (shift / 2)
    if 0 ≤ value.re then ⟨unscale root, copySign (unscale other) value.im⟩
    else ⟨unscale other, copySign (unscale root) value.im⟩

/-- The unit in the direction of a complex number. Zero has no direction and gives zero; an
infinite part alone decides the direction. -/
def direction (value : Cartesian) : Cartesian :=
  let length := value.modulus
  if length.isNaN then ⟨nan, nan⟩
  else if length == infinity then
    if value.re.abs == infinity then
      if value.im.abs == infinity then ⟨nan, nan⟩ else ⟨copySign 1 value.re, 0⟩
    else ⟨0, copySign 1 value.im⟩
  else if length == 0 then ⟨0, 0⟩
  else ⟨value.re / length, value.im / length⟩

/-- The angle of the point `(across, up)`, continued to complex coordinates:
`-i * log ((across + i * up) / sqrt (across ^ 2 + up ^ 2))`. -/
def angle (up across : Cartesian) : Cartesian :=
  let radius := (across * across + up * up).sqrt
  ⟨-0.0, -1⟩ * log ((across + unit * up) / radius)

end Formulary.Cartesian
