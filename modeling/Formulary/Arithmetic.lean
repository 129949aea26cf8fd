import Formulary.Builtin
import Formulary.Fault
import Formulary.Number
import Formulary.Opcode
import Formulary.Tolerance

/-!
# Arithmetic

Programs run on any type of scalars for which the operations below are given; no law is asked of
them. Comparisons and truth values are decided with a tolerance, on the real parts of the scalars.
-/

namespace Formulary

/-- The scalars that programs run on. -/
structure Arithmetic (α : Type) where
  zero : α
  /-- The scalar of a truth value about some scalars: one or zero. -/
  truth : List α → Bool → α
  add : α → α → α
  sub : α → α → α
  mul : α → α → α
  div : α → α → α
  neg : α → α
  /-- A builtin function of its arguments. -/
  call : Builtin → List α → α
  /-- Whether a value has an imaginary part other than zero. -/
  isImaginary : α → Bool
  /-- A value without its imaginary part. -/
  realPart : α → α
  /-- Whether the real part is below zero. -/
  isNegative : α → Bool
  /-- Whether the real part is greater than a tolerance. -/
  exceeds : α → Number → Except Fault Bool
  /-- Whether the size of the real part is at most a tolerance. -/
  within : α → Number → Except Fault Bool
  /-- The scalar of an input. -/
  input : Number → Except Fault α
  /-- The scalar of a constant or of what a cell holds, and whether an imaginary part had to be
  given up for it. -/
  stored : Number → Except Fault (α × Bool)
  /-- The scalar as a number. -/
  output : α → Number

namespace Arithmetic

variable {α : Type}

/-- An arithmetic operator. -/
def apply (arithmetic : Arithmetic α) : Arithmetical → α → α → α
  | .add => arithmetic.add
  | .sub => arithmetic.sub
  | .mul => arithmetic.mul
  | .div => arithmetic.div

/-- A comparison with a tolerance: values that differ by no more than the tolerance are equal. -/
def compare (arithmetic : Arithmetic α) (tolerance : Number) (comparison : Comparison)
    (left right : α) : Except Fault Bool :=
  match comparison with
  | .greater => arithmetic.exceeds (arithmetic.sub left right) tolerance
  | .less => arithmetic.exceeds (arithmetic.sub right left) tolerance
  | .greaterEqual => (arithmetic.exceeds (arithmetic.sub right left) tolerance).map not
  | .lessEqual => (arithmetic.exceeds (arithmetic.sub left right) tolerance).map not
  | .equal => arithmetic.within (arithmetic.sub left right) tolerance

/-- A boolean operator on values that are true when they exceed the tolerance. -/
def connect (arithmetic : Arithmetic α) (tolerance : Number) (logical : Logical)
    (left right : α) : Except Fault Bool := do
  let first ← arithmetic.exceeds left tolerance
  let second ← arithmetic.exceeds right tolerance
  match logical with
  | .and => return first && second
  | .or => return first || second

/-- The opposite of a truth value. -/
def negate (arithmetic : Arithmetic α) (tolerance : Number) (value : α) : Except Fault Bool :=
  (arithmetic.exceeds value tolerance).map not

/-- The same arithmetic on values that may be unknown. What depends on an unknown value is
unknown, and nothing is found wrong with it. -/
def lifted (arithmetic : Arithmetic α) : Arithmetic (Option α) where
  zero := some arithmetic.zero
  truth values flag := (values.mapM id).map fun known => arithmetic.truth known flag
  add left right := left.bind fun first => right.map fun second => arithmetic.add first second
  sub left right := left.bind fun first => right.map fun second => arithmetic.sub first second
  mul left right := left.bind fun first => right.map fun second => arithmetic.mul first second
  div left right := left.bind fun first => right.map fun second => arithmetic.div first second
  neg value := value.map arithmetic.neg
  call function values := (values.mapM id).map fun known => arithmetic.call function known
  isImaginary value := value.any arithmetic.isImaginary
  realPart value := value.map arithmetic.realPart
  isNegative value := value.any arithmetic.isNegative
  exceeds value tolerance := arithmetic.exceeds (value.getD arithmetic.zero) tolerance
  within value tolerance := arithmetic.within (value.getD arithmetic.zero) tolerance
  input number := (arithmetic.input number).map some
  stored number := (arithmetic.stored number).map fun (known, degraded) => (some known, degraded)
  output value := (value.map arithmetic.output).getD (.int 0)

end Arithmetic

end Formulary
