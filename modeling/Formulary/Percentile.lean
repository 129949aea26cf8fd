import Formulary.Fault
import Formulary.Insertion

/-!
# Percentiles

A percentile of a list of values lies at a position between the first and the last of the sorted
values, and is interpolated linearly between the two values next to it. The rule is stated for any
kind of numbers with the operations it needs, so that it can be run on doubles and reasoned about
on exact numbers.
-/

namespace Formulary

/-- The operations that interpolation needs. -/
structure Interpolation (α : Type) where
  add : α → α → α
  sub : α → α → α
  mul : α → α → α
  ofInt : Int → α
  less : α → α → Bool
  /-- The greatest whole number that is not greater, if there is one. -/
  floor : α → Except Fault Int
  /-- The least whole number that is not less, if there is one. -/
  ceil : α → Except Fault Int

namespace Interpolation

variable {α : Type}

/-- The position of a share `share` of the way from the first of `count` values to the last. -/
def position (numbers : Interpolation α) (count : Nat) (share : α) : α :=
  numbers.mul (numbers.ofInt (count - 1)) share

/-- The value with an index. Indices below zero count from behind the last value. -/
def valueAt? (values : List α) (index : Int) : Option α :=
  if 0 ≤ index then values[index.toNat]?
  else if index.natAbs ≤ values.length then values[values.length - index.natAbs]?
  else none

/-- The percentile of some values, if there are values on both sides of its position. -/
def percentile (numbers : Interpolation α) (values : List α) (share : α) : Except Fault α := do
  let sorted := Insertion.sort numbers.less values
  let position := numbers.position sorted.length share
  let low ← numbers.floor position
  let high ← numbers.ceil position
  match valueAt? sorted low, valueAt? sorted high with
  | some below, some above =>
    return numbers.add below
      (numbers.mul (numbers.sub above below) (numbers.sub position (numbers.ofInt low)))
  | _, _ => .error .shortInput

/-- A whole double as an integer. Numbers beyond 64 bits count as the largest or the least one
there: no list has as many values. -/
def wholeNumber (value : Float) : Except Fault Int :=
  if value.isNaN then .error .undefinedPosition
  else if value.isInf then .error .tooLarge
  else .ok value.toInt64.toInt

/-- Interpolation of doubles. -/
def float : Interpolation Float where
  add left right := left + right
  sub left right := left - right
  mul left right := left * right
  ofInt := Float.ofInt
  less left right := left < right
  floor value := wholeNumber value.floor
  ceil value := wholeNumber value.ceil

end Interpolation

end Formulary
