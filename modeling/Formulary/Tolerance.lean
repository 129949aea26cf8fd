import Formulary.Fault
import Formulary.Number
import Formulary.Opcode

/-!
# Tolerances

Comparisons and truth values are decided with a tolerance, which may be a number of any kind. A
double is compared with a whole number after that was rounded to a double, and with a complex
number part by part: the real parts decide, and the imaginary parts where the real parts are equal.

Where a comparison has lost both its operands, zero itself is compared with the tolerance. That
comparison is exact for whole numbers of any size, and there is none with a complex number.
-/

namespace Formulary.Tolerance

/-- The double of an integer within range. -/
def doubleOfInt (value : Int) : Except Fault Float :=
  match Binary64.ofInt? value with
  | some found => .ok found
  | none => .error .tooLarge

/-- Whether a double is greater than a tolerance. An undefined imaginary part decides against
it. -/
def isExceeded (value : Float) : (tolerance : Number) → Except Fault Bool
  | .int bound => (doubleOfInt bound).map fun bound => bound < value
  | .real bound => .ok (bound < value)
  | .complex bound =>
    .ok ((bound.re < value && !bound.im.isNaN) || (value == bound.re && bound.im < 0))

/-- Whether a double is at most a tolerance. -/
def isKept (value : Float) : (tolerance : Number) → Except Fault Bool
  | .int bound => (doubleOfInt bound).map fun bound => value ≤ bound
  | .real bound => .ok (value ≤ bound)
  | .complex bound =>
    .ok ((value < bound.re && !bound.im.isNaN) || (value == bound.re && 0 ≤ bound.im))

/-- Whether zero itself is greater than a tolerance. -/
def isExceededByZero : (tolerance : Number) → Except Fault Bool
  | .int bound => .ok (bound < 0)
  | .real bound => .ok (bound < 0)
  | .complex _ => .error .notReal

/-- Whether zero itself is at most a tolerance. -/
def isKeptByZero : (tolerance : Number) → Except Fault Bool
  | .int bound => .ok (0 ≤ bound)
  | .real bound => .ok (0 ≤ bound)
  | .complex _ => .error .notReal

/-- A comparison of zero with zero. -/
def compareZeros (tolerance : Number) : Comparison → Except Fault Bool
  | .greater => isExceededByZero tolerance
  | .less => isExceededByZero tolerance
  | .greaterEqual => (isExceededByZero tolerance).map not
  | .lessEqual => (isExceededByZero tolerance).map not
  | .equal => isKeptByZero tolerance

end Formulary.Tolerance
