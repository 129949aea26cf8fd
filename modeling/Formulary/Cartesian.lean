/-!
# Complex numbers in Cartesian form

A complex number is a pair of doubles. The arithmetic works on the parts as they are: products
are not repaired when an infinity meets a zero, and quotients follow Smith's method, which divides
by the larger part of the divisor first.
-/

namespace Formulary

/-- A complex number by its real and imaginary parts. -/
structure Cartesian where
  re : Float
  im : Float
  deriving Repr

namespace Cartesian

/-- A real number as a complex number; its imaginary part is positive zero. -/
def ofReal (value : Float) : Cartesian := ⟨value, 0⟩

/-- The imaginary unit. -/
def unit : Cartesian := ⟨0, 1⟩

/-- The sum, part by part. -/
def add (left right : Cartesian) : Cartesian :=
  ⟨left.re + right.re, left.im + right.im⟩

/-- The difference, part by part. -/
def sub (left right : Cartesian) : Cartesian :=
  ⟨left.re - right.re, left.im - right.im⟩

/-- The opposite number, part by part. -/
def neg (value : Cartesian) : Cartesian :=
  ⟨-value.re, -value.im⟩

/-- The product, each part rounded from two products. -/
def mul (left right : Cartesian) : Cartesian :=
  ⟨left.re * right.re - left.im * right.im, left.re * right.im + left.im * right.re⟩

/-- The quotient by Smith's method. A divisor of zero divides both parts by a positive zero. -/
def div (left right : Cartesian) : Cartesian :=
  if right.im.abs ≤ right.re.abs then
    if right.re == 0 && right.im == 0 then
      ⟨left.re / right.re.abs, left.im / right.re.abs⟩
    else
      let ratio := right.im / right.re
      let scale := 1 / (right.re + right.im * ratio)
      ⟨(left.re + left.im * ratio) * scale, (left.im - left.re * ratio) * scale⟩
  else
    let ratio := right.re / right.im
    let scale := 1 / (right.im + right.re * ratio)
    ⟨(left.re * ratio + left.im) * scale, (left.im * ratio - left.re) * scale⟩

/-- A complex number times a real factor, part by part. -/
def scale (factor : Float) (value : Cartesian) : Cartesian :=
  ⟨factor * value.re, factor * value.im⟩

instance : Add Cartesian := ⟨add⟩
instance : Sub Cartesian := ⟨sub⟩
instance : Neg Cartesian := ⟨neg⟩
instance : Mul Cartesian := ⟨mul⟩
instance : Div Cartesian := ⟨div⟩

/-- Two complex numbers are equal when their parts are; a NaN in a part makes them differ. -/
def equal (left right : Cartesian) : Bool :=
  left.re == right.re && left.im == right.im

end Cartesian

end Formulary
