import Formulary.Cartesian.Elementary

/-!
# Bessel functions of the first and second kind, of order zero and one

Close to the origin the power series serve, at moderate distance Miller's backward recurrence, and
far away Hankel's asymptotic expansion. The recurrence fixes the values up to a common factor,
which the expansion of `exp (∓ i z)` in Bessel functions determines: the sign is taken so that the
exponential is as large as the functions themselves. The functions of the second kind follow from
Neumann's expansions in those of the first kind.

There are limits. A point whose distance leaves no phase in a double has no value; on the real axis
the leading term with the rounded phase stands in. Where the exponential is out of range the first
kind has infinite parts of the right signs. Very close to the origin the first kind of order one
counts as zero, and the second kind is infinite on the positive axis and undefined beside it.
-/

namespace Formulary.Bessel

open Formulary.Cartesian (ofReal scale pi)

/-- The four functions at one point. -/
structure Values where
  j0 : Cartesian
  j1 : Cartesian
  y0 : Cartesian
  y1 : Cartesian

/-- Euler's constant. -/
def gamma : Float := 0.5772156649015329

/-- The running sums of the power series: the term without its second factorial, and the four
sums. -/
structure SeriesState where
  term : Cartesian
  harmonic : Float
  even : Cartesian
  odd : Cartesian
  evenHarmonic : Cartesian
  oddHarmonic : Cartesian

/-- One term of the power series in `power = -(z / 2) ^ 2`: the term of order zero is
`power ^ k / (k !) ^ 2`, that of order one is the same over `k + 1`. -/
def SeriesState.add (power : Cartesian) (state : SeriesState) (count : Nat) : SeriesState :=
  let order := Float.ofNat count
  let term := scale (1 / (order * order)) (state.term * power)
  let harmonic := state.harmonic + 1 / order
  let next := harmonic + 1 / (order + 1)
  let oddTerm := scale (1 / (order + 1)) term
  { term
    harmonic
    even := state.even + term
    odd := state.odd + oddTerm
    evenHarmonic := state.evenHarmonic + scale harmonic term
    oddHarmonic := state.oddHarmonic + scale (harmonic + next - 2 * gamma) oddTerm }

/-- The power series, for points close to the origin. -/
def near (point logHalf : Cartesian) : Values :=
  let half := scale 0.5 point
  let power := -(half * half)
  let start : SeriesState :=
    { term := ofReal 1
      harmonic := 0
      even := ofReal 1
      odd := ofReal 1
      evenHarmonic := ofReal 0
      oddHarmonic := ofReal (1 - 2 * gamma) }
  let sums := (List.range' 1 25).foldl (SeriesState.add power) start
  let j1 := half * sums.odd
  { j0 := sums.even
    j1
    y0 := scale (2 / pi) ((logHalf + ofReal gamma) * sums.even - sums.evenHarmonic)
    y1 :=
      scale (2 / pi) (logHalf * j1) - scale (1 / pi) (half * sums.oddHarmonic)
        - scale (2 / pi) (ofReal 1 / point) }

/-- The unscaled values of orders zero to `count`, by recurrence from a tiny value downwards. -/
def recurrence (point : Cartesian) : (count : Nat) → List Cartesian → List Cartesian
  | 0, values => values
  | count + 1, values =>
    let next := (values.drop 1).headD (ofReal 0)
    let current := values.headD (ofReal 1e-290)
    let previous := scale (2 * Float.ofNat (count + 1)) (current / point) - next
    recurrence point count (previous :: values)

/-- A complex number times a power of `∓ i`. -/
def quarterTurns (upper : Bool) (turns : Nat) (value : Cartesian) : Cartesian :=
  match turns % 4 with
  | 0 => value
  | 1 => if upper then value.turnBack else value.turn
  | 2 => -value
  | _ => if upper then value.turn else value.turnBack

/-- The sign and size of the coefficient of an order in the expansion of the second kind of order
zero (even orders) or one (odd orders). -/
def neumannCoefficient (order : Nat) : Float :=
  let index := Float.ofNat ((order + 1) / 2)
  let size := if order % 2 = 0 ∨ order = 1 then 1 / index else 1 / index + 1 / (index - 1)
  if (order + 1) / 2 % 2 = 0 then size else -size

/-- The running sums over the orders. -/
structure MillerSums where
  exponential : Cartesian
  even : Cartesian
  odd : Cartesian

/-- One value of the recurrence, with its order. -/
def MillerSums.add (upper : Bool) (sums : MillerSums) (entry : Cartesian × Nat) : MillerSums :=
  let (value, order) := entry
  if order = 0 then { sums with exponential := sums.exponential + value }
  else
    let weighted := scale (neumannCoefficient order) value
    let exponential := sums.exponential + scale 2 (quarterTurns upper order value)
    if order % 2 = 0 then { sums with exponential, even := sums.even + weighted }
    else { sums with exponential, odd := sums.odd + weighted }

/-- Miller's recurrence with Neumann's expansions, for points at moderate distance. -/
def middle (point logHalf : Cartesian) : Values :=
  let count := (1.25 * point.modulus).toUInt64.toNat + 45
  let values := recurrence point count [ofReal 1e-290]
  let upper := decide (0 ≤ point.im)
  let zero := ofReal 0
  let sums := values.zipIdx.foldl (MillerSums.add upper) ⟨zero, zero, zero⟩
  let exponential := Cartesian.exp (if upper then point.turnBack else point.turn)
  let factor := exponential / sums.exponential
  let j0 := values.headD zero * factor
  let j1 := (values.drop 1).headD zero * factor
  let logGamma := logHalf + ofReal gamma
  { j0
    j1
    y0 := scale (2 / pi) (logGamma * j0) - scale (4 / pi) (sums.even * factor)
    y1 :=
      scale (2 / pi) (logGamma * j1) - scale (2 / pi) (j0 / point)
        + scale (2 / pi) (sums.odd * factor) }

/-- The sums of Hankel's expansion with and without alternating turns, for `4 * order ^ 2`. -/
def hankelSums (square : Float) (point : Cartesian) : Cartesian × Cartesian :=
  let step := fun (state : Cartesian × Cartesian × Cartesian) (count : Nat) =>
    let (term, first, second) := state
    let odd := Float.ofNat (2 * count - 1)
    let term := scale ((square - odd * odd) / (8 * Float.ofNat count)) (term / point)
    (term, first + quarterTurns false count term, second + quarterTurns true count term)
  let (_, first, second) := (List.range' 1 12).foldl step (ofReal 1, ofReal 1, ofReal 1)
  (first, second)

/-- Hankel's expansion of one order, for points far away in the right half plane. -/
def hankel (order : Nat) (point : Cartesian) : Cartesian × Cartesian :=
  let square := Float.ofNat (4 * order * order)
  let (first, second) := hankelSums square point
  let root := Cartesian.sqrt (ofReal (2 / pi) / point)
  let halfRoot : Float := Float.sqrt 0.5
  let rotation : Cartesian := if order = 0 then ⟨halfRoot, -halfRoot⟩ else ⟨-halfRoot, -halfRoot⟩
  let back : Cartesian := ⟨rotation.re, -rotation.im⟩
  let outgoing := root * (Cartesian.exp point.turn * rotation) * first
  let incoming := root * (Cartesian.exp point.turnBack * back) * second
  (scale 0.5 (outgoing + incoming), scale 0.5 (outgoing - incoming).turnBack)

/-- Hankel's expansion, for points far away. In the left half plane the functions are continued
from the opposite point. -/
def far (point : Cartesian) : Values :=
  if 0 ≤ point.re then
    let (j0, y0) := hankel 0 point
    let (j1, y1) := hankel 1 point
    { j0, j1, y0, y1 }
  else
    let (j0, y0) := hankel 0 (-point)
    let (j1, y1) := hankel 1 (-point)
    let turned := fun (value : Cartesian) =>
      scale 2 (if 0 ≤ point.im then value.turn else value.turnBack)
    { j0, j1 := -j1, y0 := y0 + turned j0, y1 := -(y1 + turned j1) }

/-- The four functions at a point other than the origin. -/
def values (point : Cartesian) : Values :=
  let distance := point.modulus
  let logHalf := Cartesian.log (scale 0.5 ⟨point.re, if point.im == 0 then 0 else point.im⟩)
  if distance ≤ 2 then near point logHalf
  else if distance ≤ 200 then middle point logHalf
  else far point

/-- Which of the functions is meant. -/
inductive Kind
  | first
  | second
  deriving DecidableEq, Repr

/-- The orders. -/
inductive Order
  | zero
  | one
  deriving DecidableEq, Repr

/-- The growth up to which exponentials are used, a little below the range of doubles. -/
def growthLimit : Float := 2.303 * (1021 * 0.3010299956639812 - 3)

/-- The distance up to which a double holds a phase. -/
def phaseLimit : Float := 2251799813685248

/-- The distance below which the second kind is out of range. -/
def originLimit : Float := 2.2250738585072014e-305

/-- The sum of the asymptotic expansion of the modified function, for `4 * order ^ 2`. -/
def modifiedSum (square : Float) (point : Cartesian) : Cartesian :=
  let step := fun (state : Cartesian × Cartesian) (count : Nat) =>
    let (term, sum) := state
    let odd := Float.ofNat (2 * count - 1)
    let term := scale ((odd * odd - square) / (8 * Float.ofNat count)) (term / point)
    (term, sum + term)
  ((List.range' 1 12).foldl step (ofReal 1, ofReal 1)).2

/-- The modified function of the first kind over its exponential, far away in the right half
plane. -/
def modifiedScaled (order : Order) (point : Cartesian) : Cartesian :=
  let square := match order with
    | .zero => 0
    | .one => 4
  let root := Cartesian.sqrt (ofReal (1 / (2 * pi)) / point)
  root * ⟨point.im.cos, point.im.sin⟩ * modifiedSum square point

/-- The function of the first kind where it is out of range: its parts are infinite, with the signs
of the modified function at the point turned into the right half plane and turned back. The cosine
of the right angle is not quite zero, so that on the imaginary axis the part that vanishes is
undefined for order zero and positive for order one. -/
def overflowing (order : Order) (point : Cartesian) : Cartesian :=
  let upper := decide (0 ≤ point.im)
  let modified := modifiedScaled order (if upper then point.turnBack else point.turn)
  let angle : Float := match order with
    | .zero => 0
    | .one => pi / 2
  let back : Cartesian := ⟨angle.cos, if upper then angle.sin else -angle.sin⟩
  scale Binary64.infinity (back * modified)

/-- The function of the first kind at a complex point other than the origin. -/
def first (order : Order) (point : Cartesian) : Cartesian :=
  if growthLimit < point.im.abs then overflowing order point
  else
    match order with
    | .zero => (values point).j0
    | .one =>
      if (0.5 * point.modulus).log ≤ -growthLimit then ofReal 0 else (values point).j1

/-- The function of the second kind at a complex point other than the origin. -/
def second (order : Order) (point : Cartesian) : Cartesian :=
  if point.modulus < originLimit then
    if 0 ≤ point.re && point.im == 0 then ofReal (-Binary64.infinity)
    else ⟨Binary64.nan, Binary64.nan⟩
  else if growthLimit < point.im.abs then ⟨Binary64.nan, Binary64.nan⟩
  else
    match order with
    | .zero => (values point).y0
    | .one => (values point).y1

/-- The function of a kind and an order at a complex point. -/
def complex (kind : Kind) (order : Order) (point : Cartesian) : Cartesian :=
  if point.modulus ≤ phaseLimit then
    if point.re == 0 && point.im == 0 then
      match kind, order with
      | .first, .zero => ofReal 1
      | .first, .one => ofReal 0
      | .second, _ => ofReal (-Binary64.infinity)
    else
      match kind with
      | .first => first order point
      | .second => second order point
  else ⟨Binary64.nan, Binary64.nan⟩

/-- The leading term far away on the positive real axis. -/
def distant (kind : Kind) (order : Order) (point : Float) : Float :=
  let phase := point - match order with
    | .zero => 0.7853981633974483
    | .one => 2.356194490192345
  let wave := match kind with
    | .first => phase.cos
    | .second => phase.sin
  wave * (2 / pi).sqrt / point.sqrt

/-- The function of a kind and an order at a real point. The second kind is undefined below zero,
and both are at infinity. -/
def real (kind : Kind) (order : Order) (point : Float) : Float :=
  if kind == .second && point < 0 then Binary64.nan
  else
    let size := point.abs
    let value :=
      if phaseLimit < size then distant kind order size
      else (complex kind order (ofReal size)).re
    if order == .one && point < 0 then -value else value

end Formulary.Bessel
