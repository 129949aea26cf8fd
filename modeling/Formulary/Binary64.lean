/-!
# Doubles as exact numbers

A finite double is `± significand * 2 ^ exponent`. `decode?` takes a double apart and `ofRatio`
rounds an exact quotient of natural numbers to the nearest double, ties to the even significand.
Both work on the bits and on natural numbers alone, so every reader and printer of numbers in this
library is exact.
-/

namespace Formulary.Binary64

/-- The parts of a finite double. The significand is below `2 ^ 53` and the exponent is at least
`-1074`. -/
structure Finite where
  negative : Bool
  significand : Nat
  exponent : Int
  deriving DecidableEq, Repr

/-- The parts of a double given by its bits; an infinity or a NaN has none. -/
def decodeBits? (bits : Nat) : Option Finite :=
  let field : Nat := bits / Nat.pow 2 52 % Nat.pow 2 11
  let fraction : Nat := bits % Nat.pow 2 52
  let negative := decide (Nat.pow 2 63 ≤ bits)
  if field = 2047 then none
  else if field = 0 then some ⟨negative, fraction, -1074⟩
  else some ⟨negative, Nat.pow 2 52 + fraction, (field : Int) - 1075⟩

/-- The parts of a double; an infinity or a NaN has none. -/
def decode? (value : Float) : Option Finite :=
  decodeBits? value.toBits.toNat

/-- The quotient of two natural numbers, rounded to the nearest natural number; a half goes to the
even neighbour. -/
def divHalfEven (numerator denominator : Nat) : Nat :=
  let floor := numerator / denominator
  let twice := 2 * (numerator % denominator)
  if twice < denominator then floor
  else if denominator < twice then floor + 1
  else if floor % 2 = 0 then floor
  else floor + 1

/-- The rounded quotient is one of the two natural numbers around the exact one. -/
theorem divHalfEven_mem (numerator denominator : Nat) :
    divHalfEven numerator denominator = numerator / denominator ∨
      divHalfEven numerator denominator = numerator / denominator + 1 := by
  simp only [divHalfEven]
  split
  · exact .inl rfl
  · split
    · exact .inr rfl
    · split
      · exact .inl rfl
      · exact .inr rfl

/-- Twice the distance between the rounded quotient and the exact one is at most one. -/
theorem divHalfEven_near {numerator denominator : Nat} (positive : 0 < denominator) :
    2 * numerator ≤ denominator * (2 * divHalfEven numerator denominator + 1) ∧
      denominator * (2 * divHalfEven numerator denominator) ≤
        2 * numerator + denominator := by
  have division := Nat.div_add_mod numerator denominator
  have remainder := Nat.mod_lt numerator positive
  simp only [divHalfEven]
  generalize numerator / denominator = floor at *
  generalize numerator % denominator = rest at *
  subst division
  split
  · constructor <;> grind
  · split
    · constructor <;> grind
    · split
      · constructor <;> grind
      · constructor <;> grind

/-- The exponent of the unit in the last place of a positive quotient: the significand then has
53 bits, unless the exponent is the least there is. The quotient lies between `2 ^ (guess - 1)`
and `2 ^ (guess + 1)`, and one comparison decides. -/
def unitExponent (numerator denominator : Nat) : Int :=
  let guess : Int := (numerator.log2 : Int) - (denominator.log2 : Int)
  let reaches :=
    if 0 ≤ guess then denominator * Nat.pow 2 guess.toNat ≤ numerator
    else denominator ≤ numerator * Nat.pow 2 (-guess).toNat
  let leading := if reaches then guess else guess - 1
  max (leading - 52) (-1074)

/-- The bits of positive infinity. -/
def infinityBits : Nat := 2047 * Nat.pow 2 52

/-- The bits of the double nearest to a quotient of natural numbers, without the sign. A rounded
significand of `2 ^ 53` carries into the exponent field by itself. -/
def ratioBits (numerator denominator : Nat) : Nat :=
  if numerator = 0 ∨ denominator = 0 then 0
  else
    let exponent := unitExponent numerator denominator
    let significand :=
      if 0 ≤ exponent then divHalfEven numerator (denominator * Nat.pow 2 exponent.toNat)
      else divHalfEven (numerator * Nat.pow 2 (-exponent).toNat) denominator
    min ((exponent + 1074).toNat * Nat.pow 2 52 + significand) infinityBits

/-- The double nearest to a signed quotient of natural numbers; a quotient that is too large gives
an infinity. -/
def ofRatio (negative : Bool) (numerator denominator : Nat) : Float :=
  let magnitude := ratioBits numerator denominator
  Float.ofBits (UInt64.ofNat (if negative then Nat.pow 2 63 + magnitude else magnitude))

/-- The double nearest to an integer. -/
def ofInt (value : Int) : Float :=
  ofRatio (decide (value < 0)) value.natAbs 1

/-- The double nearest to an integer, unless the integer is beyond the largest double. -/
def ofInt? (value : Int) : Option Float :=
  if ratioBits value.natAbs 1 < infinityBits then some (ofInt value) else none

/-- Whether the sign bit of a double is set. -/
def signBit (value : Float) : Bool :=
  decide (Nat.pow 2 63 ≤ value.toBits.toNat)

/-- The first double with the sign of the second. -/
def copySign (magnitude sign : Float) : Float :=
  let bits := magnitude.toBits.toNat % Nat.pow 2 63
  Float.ofBits (UInt64.ofNat (if signBit sign then Nat.pow 2 63 + bits else bits))

/-- Positive infinity. -/
def infinity : Float := Float.ofBits 0x7FF0000000000000

/-- The value that stands for an undefined result. -/
def nan : Float := Float.ofBits 0x7FF8000000000000

/-- The least positive normal double. -/
def leastNormal : Float := Float.ofBits 0x0010000000000000

/-- The largest finite double. -/
def largest : Float := Float.ofBits 0x7FEFFFFFFFFFFFFF

/-- A double without its subnormal part: what is smaller than the normal doubles becomes a zero of
its sign. -/
def flush (value : Float) : Float :=
  if value.abs < leastNormal then copySign 0 value else value

/-- Whether a finite double given by its parts is a given integer. -/
def Finite.isInt (parts : Finite) (value : Int) : Bool :=
  let signed : Int := if parts.negative then -parts.significand else parts.significand
  if 0 ≤ parts.exponent then decide (signed * (Nat.pow 2 parts.exponent.toNat : Nat) = value)
  else decide (signed = value * (Nat.pow 2 (-parts.exponent).toNat : Nat))

/-- Whether a double is exactly a given integer. -/
def equalsInt (value : Float) (integer : Int) : Bool :=
  match decode? value with
  | some parts => parts.isInt integer
  | none => false

example : ratioBits 1 3 = 0x3FD5555555555555 := by decide +kernel

example : ratioBits (10 ^ 400) 1 = infinityBits := by decide +kernel

end Formulary.Binary64
