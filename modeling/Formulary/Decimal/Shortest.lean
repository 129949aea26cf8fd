import Formulary.Binary64

/-!
# Shortest decimal digits

The decimal text of a double has the fewest digits that read back as the same double, and among
those the digits nearest to it. For each count of digits the two neighbours of the value on that
decimal grid are tried, in exact arithmetic, and the first grid with a hit wins.
-/

namespace Formulary.Decimal

open Formulary.Binary64 (Finite)

/-- A positive decimal number: the digits from the first to the last nonzero one, and the exponent
of the first digit, so that `[1, 2, 5]` with exponent `1` is 12.5. -/
structure Digits where
  digits : List Nat
  exponent : Int
  deriving DecidableEq, Repr

/-- The decimal digits of a natural number, most significant first; zero has none. -/
def naturalDigits (value : Nat) : List Nat :=
  if value = 0 then [] else naturalDigits (value / 10) ++ [value % 10]
termination_by value
decreasing_by omega

/-- Compares `count * 10 ^ exponent` with `numerator / denominator`. -/
def compareScaled (count : Nat) (exponent : Int) (numerator denominator : Nat) : Ordering :=
  if 0 ≤ exponent then compare (count * Nat.pow 10 exponent.toNat * denominator) numerator
  else compare (count * denominator) (numerator * Nat.pow 10 (-exponent).toNat)

/-- A positive rational number. -/
structure Ratio where
  numerator : Nat
  denominator : Nat

/-- The rational number `significand * 2 ^ exponent`. -/
def Ratio.ofBinary (significand : Nat) (exponent : Int) : Ratio :=
  if 0 ≤ exponent then ⟨significand * Nat.pow 2 exponent.toNat, 1⟩
  else ⟨significand, Nat.pow 2 (-exponent).toNat⟩

/-- The exponent of the first decimal digit of a positive rational number. The estimate from the
binary logarithm is off by at most one either way. -/
def Ratio.leadingExponent (ratio : Ratio) : Int :=
  let binary : Int := (ratio.numerator.log2 : Int) - (ratio.denominator.log2 : Int)
  let estimate := binary * 30103 / 100000
  if compareScaled 1 (estimate + 1) ratio.numerator ratio.denominator != .gt then estimate + 1
  else if compareScaled 1 estimate ratio.numerator ratio.denominator != .gt then estimate
  else estimate - 1

/-- The count of units `10 ^ exponent` in a rational number, rounded down. -/
def Ratio.floorAt (ratio : Ratio) (exponent : Int) : Nat :=
  if 0 ≤ exponent then ratio.numerator / (ratio.denominator * Nat.pow 10 exponent.toNat)
  else ratio.numerator * Nat.pow 10 (-exponent).toNat / ratio.denominator

/-- The count of units `10 ^ exponent` in a rational number, rounded to the nearest; a half goes
to the even neighbour. -/
def Ratio.roundAt (ratio : Ratio) (exponent : Int) : Nat :=
  if 0 ≤ exponent then
    Binary64.divHalfEven ratio.numerator (ratio.denominator * Nat.pow 10 exponent.toNat)
  else Binary64.divHalfEven (ratio.numerator * Nat.pow 10 (-exponent).toNat) ratio.denominator

/-- The numbers that read back as a given double: those between the two halfway points to its
neighbours. The halfway points themselves belong to it when the significand is even. -/
structure Interval where
  low : Ratio
  high : Ratio
  closed : Bool

/-- The interval of a positive double. Below a power of two the neighbour is half as far away. -/
def Interval.ofFinite (parts : Finite) : Interval :=
  let quarter := parts.exponent - 2
  let below :=
    if parts.significand = Nat.pow 2 52 ∧ -1074 < parts.exponent then 4 * parts.significand - 1
    else 4 * parts.significand - 2
  { low := Ratio.ofBinary below quarter
    high := Ratio.ofBinary (4 * parts.significand + 2) quarter
    closed := parts.significand % 2 == 0 }

/-- Whether `count * 10 ^ exponent` lies in the interval. -/
def Interval.holds (interval : Interval) (count : Nat) (exponent : Int) : Bool :=
  let fromLow := compareScaled count exponent interval.low.numerator interval.low.denominator
  let fromHigh := compareScaled count exponent interval.high.numerator interval.high.denominator
  (fromLow == .gt || (interval.closed && fromLow == .eq)) &&
    (fromHigh == .lt || (interval.closed && fromHigh == .eq))

/-- The neighbour of a value on the grid of `10 ^ exponent` that reads back as the value; the
nearer of two, and the even one of two equally near. -/
def hitAt? (interval : Interval) (value : Ratio) (exponent : Int) : Option Nat :=
  let floor := value.floorAt exponent
  let low := interval.holds floor exponent && floor != 0
  let high := interval.holds (floor + 1) exponent
  if low && high then some (value.roundAt exponent)
  else if low then some floor
  else if high then some (floor + 1)
  else none

/-- The digits of `count * 10 ^ exponent`, without the zeros at the end. -/
def Digits.ofScaled (count : Nat) (exponent : Int) : Digits :=
  let all := naturalDigits count
  { digits := (all.reverse.dropWhile (· == 0)).reverse
    exponent := exponent + all.length - 1 }

/-- The shortest digits of a positive finite double. Seventeen digits always suffice. -/
def shortest (parts : Finite) : Digits :=
  let value := Ratio.ofBinary parts.significand parts.exponent
  let leading := value.leadingExponent
  let interval := Interval.ofFinite parts
  let hit := (List.range 17).findSome? fun (more : Nat) =>
    let exponent := leading - (more : Int)
    (hitAt? interval value exponent).map fun count => Digits.ofScaled count exponent
  hit.getD (Digits.ofScaled (value.roundAt (leading - 17)) (leading - 17))

/-- The double nearest to a finite double rounded to a count of significant digits. A half goes to
the even digit; zero stays zero. -/
def roundSignificant (count : Nat) (value : Float) : Float :=
  match Binary64.decode? value with
  | none => value
  | some parts =>
    if parts.significand = 0 then value
    else
      let exact := Ratio.ofBinary parts.significand parts.exponent
      let exponent := exact.leadingExponent - count + 1
      let rounded := exact.roundAt exponent
      if 0 ≤ exponent then Binary64.ofRatio parts.negative (rounded * Nat.pow 10 exponent.toNat) 1
      else Binary64.ofRatio parts.negative rounded (Nat.pow 10 (-exponent).toNat)

end Formulary.Decimal
