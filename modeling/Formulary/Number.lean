import Formulary.Cartesian
import Formulary.Decimal.Layout

/-!
# Numbers as a host gives them

A host hands over whole numbers of any size, doubles and complex numbers, and constants and cells
keep the kind they were given. Numbers of different kinds are compared by their exact values.
-/

namespace Formulary

/-- A number of one of the three kinds. -/
inductive Number
  | int (value : Int)
  | real (value : Float)
  | complex (value : Cartesian)

namespace Number

/-- Whether the number is of the complex kind, whatever its imaginary part is. -/
def isComplex : Number → Bool
  | complex _ => true
  | _ => false

/-- Whether the number is a whole number beyond the range of doubles. -/
def isTooLarge : Number → Bool
  | int value => (Binary64.ofInt? value).isNone
  | _ => false

/-- The real part of a number as a double. -/
def toFloat : Number → Float
  | int value => Binary64.ofInt value
  | real value => value
  | complex value => value.re

/-- The number as a complex number. -/
def toCartesian : Number → Cartesian
  | int value => Cartesian.ofReal (Binary64.ofInt value)
  | real value => Cartesian.ofReal value
  | complex value => value

/-- Whether the exact values of two numbers are equal. Both zeros are equal, and a NaN is equal to
nothing. -/
def equal : Number → Number → Bool
  | int left, int right => left == right
  | int left, real right => Binary64.equalsInt right left
  | int left, complex right => right.im == 0 && Binary64.equalsInt right.re left
  | real left, int right => Binary64.equalsInt left right
  | real left, real right => left == right
  | real left, complex right => right.im == 0 && left == right.re
  | complex left, int right => left.im == 0 && Binary64.equalsInt left.re right
  | complex left, real right => left.im == 0 && left.re == right
  | complex left, complex right => left.equal right

end Number

/-- The text of a lone double. -/
def realText (value : Float) : String :=
  String.ofList (Decimal.floatText .lone value)

/-- The text of a complex number: the imaginary part alone when the real part is positive zero,
and otherwise both parts in parentheses, the imaginary one with its sign. -/
def complexText (value : Cartesian) : String :=
  let imaginary := Decimal.floatText .part value.im
  if value.re == 0 && !Binary64.signBit value.re then String.ofList (imaginary ++ ['j'])
  else
    let signed := if imaginary.head? = some '-' then imaginary else '+' :: imaginary
    String.ofList ('(' :: Decimal.floatText .part value.re ++ signed ++ ['j', ')'])

/-- The text of a number in its own kind. -/
def Number.text : Number → String
  | .int value => String.ofList (Decimal.integerText value)
  | .real value => realText value
  | .complex value => complexText value

end Formulary
