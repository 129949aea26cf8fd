import Formulary.Arithmetic.Complex
import Formulary.Program

/-!
# Evaluation

A program is evaluated in place: the stack is a work area whose size is the depth that the
program's shape foretells, with a mark for the top. Every step works on the values just below the
mark. Vector operators write their result over their operands, component by component. A place
that the work area does not have is neither read nor written; that is a fault.

Where a comparison or a boolean operator meets a complex value, or the real domain a complex
constant or cell, evaluation goes on with a real value in its place and logs a degradation.
-/

namespace Formulary

/-- What takes the place of an illegal complex value. -/
inductive Substitute
  | zero
  | realPart
  deriving DecidableEq, Repr

/-- Where an illegal complex value was met. -/
inductive Place
  | constant
  | variable
  | operator (operator : Operator)
  deriving DecidableEq, Repr

/-- An illegal complex value that was replaced. -/
structure Degradation where
  index : Nat
  place : Place
  substitute : Substitute
  deriving DecidableEq, Repr

/-- What is said about a substitute. -/
def Substitute.describe : Substitute → String
  | zero => "substituting 0"
  | realPart => "using real part"

/-- The name of a place. -/
def Place.describe : Place → String
  | .constant => "constant"
  | .variable => "variable"
  | .operator found => found.opcode.text

/-- The warning about a degradation. -/
def Degradation.message (degradation : Degradation) : String :=
  s!"illegal complex value at step {degradation.index} ({degradation.place.describe}); "
    ++ degradation.substitute.describe

/-- The work area of an evaluation: a fixed number of places of which those below the top hold the
stack. -/
structure Machine (α : Type) where
  memory : Array α
  top : Nat

namespace Machine

variable {α : Type}

/-- The work area for a program, with nothing on the stack. -/
def start (arithmetic : Arithmetic α) (depth : Nat) : Machine α :=
  ⟨Array.replicate depth arithmetic.zero, 0⟩

/-- The value in a place, if there is such a place. -/
def get (memory : Array α) (place : Nat) : Except Fault α :=
  match memory[place]? with
  | some value => .ok value
  | none => .error .stackOverrun

/-- Replaces the value in a place, if there is such a place. -/
def put (memory : Array α) (place : Nat) (value : α) : Except Fault (Array α) :=
  if place < memory.size then .ok (memory.setIfInBounds place value) else .error .stackOverrun

/-- Puts a value in a place and the top just above it. -/
def settle (machine : Machine α) (place : Nat) (value : α) : Except Fault (Machine α) := do
  return { memory := ← put machine.memory place value, top := place + 1 }

/-- Puts a value on the stack, if there is room. -/
def push (machine : Machine α) (value : α) : Except Fault (Machine α) :=
  machine.settle machine.top value

/-- The place of the lowest of the topmost values, if there are so many. -/
def base (machine : Machine α) (count : Nat) : Except Fault Nat :=
  if count ≤ machine.top then .ok (machine.top - count) else .error .emptyStack

/-- The values on the stack, from the bottom up. -/
def values (machine : Machine α) : List α :=
  machine.memory.toList.take machine.top

/-- The value on top of the stack. -/
def topValue (machine : Machine α) : Except Fault α :=
  match machine.values.getLast? with
  | some value => .ok value
  | none => .error .emptyStack

/-- Writes `count` values from a place on, one after the other. Each value is computed from the
memory as the writes before it left it. -/
def overwrite (memory : Array α) (place count : Nat) (value : Array α → Nat → Except Fault α) :
    Except Fault (Array α) :=
  (List.range count).foldlM
    (fun memory offset => do put memory (place + offset) (← value memory offset)) memory

/-- The sum of the products of the components of two groups of values, which start in the given
places. -/
def dotProduct (arithmetic : Arithmetic α) (memory : Array α) (first second count : Nat) :
    Except Fault α :=
  (List.range count).foldlM
    (fun total offset => do
      let left ← get memory (first + offset)
      let right ← get memory (second + offset)
      return arithmetic.add total (arithmetic.mul left right))
    arithmetic.zero

/-- A component of a group of values, or zero beyond its width. -/
def component (arithmetic : Arithmetic α) (memory : Array α) (place width offset : Nat) :
    Except Fault α :=
  if offset < width then get memory (place + offset) else .ok arithmetic.zero

/-- A vector operator in place. The result is written from the first place of the left operand on;
a side of width one goes with every component of the other side, and otherwise the shorter side is
extended by zeros. -/
def vectorInPlace (arithmetic : Arithmetic α) (operator : VectorOperator) (left right : Nat)
    (machine : Machine α) : Except Fault (Machine α) := do
  let first ← machine.base (left + right)
  let second := first + left
  let apply := arithmetic.apply operator.componentwise
  if operator = .dot then
    let product ← dotProduct arithmetic machine.memory first second (min left right)
    machine.settle first product
  else if right = 1 then
    let scalar ← get machine.memory second
    let memory ← overwrite machine.memory first left fun memory offset => do
      return apply (← get memory (first + offset)) scalar
    return { memory, top := first + left }
  else if left = 1 then
    let scalar ← get machine.memory first
    let memory ← overwrite machine.memory first right fun memory offset => do
      return apply scalar (← get memory (second + offset))
    return { memory, top := first + right }
  else
    let memory ← overwrite machine.memory first (max left right) fun memory offset => do
      let leftComponent ← component arithmetic memory first left offset
      let rightComponent ← component arithmetic memory second right offset
      return apply leftComponent rightComponent
    return { memory, top := first + max left right }

/-- Changes the sign of the topmost values in place. -/
def negateInPlace (arithmetic : Arithmetic α) (width : Int) (machine : Machine α) :
    Except Fault (Machine α) := do
  let first ← machine.base width.toNat
  let memory ← overwrite machine.memory first width.toNat fun memory offset => do
    return arithmetic.neg (← get memory (first + offset))
  return { machine with memory }

/-- Replaces the topmost arguments of a function by its value. -/
def callInPlace (arithmetic : Arithmetic α) (function : Builtin) (machine : Machine α) :
    Except Fault (Machine α) := do
  let first ← machine.base function.arity
  let values ← (List.range function.arity).mapM fun offset => get machine.memory (first + offset)
  machine.settle first (arithmetic.call function values)

end Machine

/-- What an evaluation needs besides the program. -/
structure Setting where
  /-- The input point. -/
  inputs : List Number := []
  /-- What the cells hold. -/
  store : Store
  /-- The tolerance of comparisons and truth values, without which nothing is decided. -/
  tolerance : Option Number

namespace Evaluation

variable {α : Type}

/-- The operand of a boolean operator: its real part. -/
def realOperand (arithmetic : Arithmetic α) (index : Nat) (operator : Operator) (value : α) :
    Logged Degradation α := do
  Logged.noteIf (arithmetic.isImaginary value) ⟨index, .operator operator, .realPart⟩
  return arithmetic.realPart value

/-- The operand of a comparison: its real part, or zero when it has an imaginary part. -/
def comparedOperand (arithmetic : Arithmetic α) (index : Nat) (operator : Operator) (value : α) :
    Logged Degradation α := do
  Logged.noteIf (arithmetic.isImaginary value) ⟨index, .operator operator, .zero⟩
  return if arithmetic.isImaginary value then arithmetic.zero else arithmetic.realPart value

/-- The answer to a question about scalars, which the tolerance decides. -/
def decideWith (tolerance : Option Number) (ask : Number → Except Fault Bool) :
    Logged Degradation Bool :=
  match tolerance with
  | some bound => Logged.ofExcept (ask bound)
  | none => Logged.fault .noTolerance

/-- The answer to a comparison of which both operands were replaced by zero. -/
def decideZeros (tolerance : Option Number) (comparison : Comparison) :
    Logged Degradation Bool :=
  match tolerance with
  | some bound => Logged.ofExcept (Tolerance.compareZeros bound comparison)
  | none => Logged.fault .notReal

/-- The value of a scalar operator with two operands. -/
def binary (arithmetic : Arithmetic α) (tolerance : Option Number) (index : Nat)
    (operator : Operator) (left right : α) : Logged Degradation α :=
  match operator with
  | .arithmetical found => return arithmetic.apply found left right
  | .logical found => do
    let first ← realOperand arithmetic index operator left
    let second ← realOperand arithmetic index operator right
    let flag ← decideWith tolerance fun bound => arithmetic.connect bound found first second
    return arithmetic.truth [left, right] flag
  | .comparison found => do
    let first ← comparedOperand arithmetic index operator left
    let second ← comparedOperand arithmetic index operator right
    let flag ←
      if arithmetic.isImaginary left && arithmetic.isImaginary right then
        decideZeros tolerance found
      else decideWith tolerance fun bound => arithmetic.compare bound found first second
    return arithmetic.truth [left, right] flag
  | .not => return left

/-- The value of a negated truth value. -/
def negation (arithmetic : Arithmetic α) (tolerance : Option Number) (index : Nat) (value : α) :
    Logged Degradation α := do
  let operand ← realOperand arithmetic index .not value
  let flag ← decideWith tolerance fun bound => arithmetic.negate bound operand
  return arithmetic.truth [value] flag

/-- The scalar of a constant or cell, noted when it had to be degraded. -/
def load (arithmetic : Arithmetic α) (index : Nat) (place : Place) (number : Number) :
    Logged Degradation α := do
  let (value, degraded) ← Logged.ofExcept (arithmetic.stored number)
  Logged.noteIf degraded ⟨index, place, .zero⟩
  return value

/-- The scalar of a slot. -/
def input (arithmetic : Arithmetic α) (setting : Setting) (slot : Nat) : Except Fault α :=
  match setting.inputs[slot - 1]? with
  | some number => arithmetic.input number
  | none => .error .shortInput

/-- One step. -/
def exec (arithmetic : Arithmetic α) (setting : Setting) (index : Nat) (step : Step)
    (machine : Machine α) : Logged Degradation (Machine α) :=
  match step with
  | .constant constant => do
    let value ← load arithmetic index .constant constant.value
    Logged.ofExcept (machine.push value)
  | .argument slot => do
    let value ← Logged.ofExcept (input arithmetic setting slot.val)
    Logged.ofExcept (machine.push value)
  | .external cell => do
    let value ← load arithmetic index .variable (setting.store cell)
    Logged.ofExcept (machine.push value)
  | .call function => Logged.ofExcept (machine.callInPlace arithmetic function)
  | .negate width => Logged.ofExcept (machine.negateInPlace arithmetic width)
  | .vector operator left right =>
    Logged.ofExcept (machine.vectorInPlace arithmetic operator left.val right.val)
  | .operator .not => do
    let place ← Logged.ofExcept (machine.base 1)
    let value ← Logged.ofExcept (Machine.get machine.memory place)
    let result ← negation arithmetic setting.tolerance index value
    Logged.ofExcept (machine.settle place result)
  | .operator operator => do
    let place ← Logged.ofExcept (machine.base 2)
    let left ← Logged.ofExcept (Machine.get machine.memory place)
    let right ← Logged.ofExcept (Machine.get machine.memory (place + 1))
    let result ← binary arithmetic setting.tolerance index operator left right
    Logged.ofExcept (machine.settle place result)

/-- Steps in order, of which the first has the given index. -/
def execAll (arithmetic : Arithmetic α) (setting : Setting) (index : Nat) :
    List Step → Machine α → Logged Degradation (Machine α)
  | [], machine => return machine
  | step :: rest, machine => do
    let next ← exec arithmetic setting index step machine
    execAll arithmetic setting (index + 1) rest next

/-- A whole program. -/
def run (arithmetic : Arithmetic α) (setting : Setting) (program : Program) :
    Logged Degradation (Machine α) :=
  execAll arithmetic setting 0 program.steps (Machine.start arithmetic program.shape.depth)

/-- The number of values to hand out of those on the stack: all of them, or at most the width that
was asked for. -/
def outputCount (width : Option Int) (height : Nat) : Nat :=
  match width with
  | none => height
  | some width => min width.toNat height

/-- Copies values into a buffer from its start on. When the buffer is too short it is filled, and
the copy fails. -/
def copyOut (values : List Number) (buffer : List Number) : Except Fault Unit × List Number :=
  let written := values.take buffer.length ++ buffer.drop values.length
  if buffer.length < values.length then (.error .shortOutput, written) else (.ok (), written)

/-- The outcome of an evaluation: the top of the stack or a fault, the degradations, and the output
buffer as it is afterwards. -/
structure Outcome where
  top : Except Fault Number
  degradations : List Degradation
  buffer : List Number

/-- Evaluates a program and, if a buffer is given, copies the topmost values into it in the order
in which they were computed. -/
def evaluate (domain : Domain) (setting : Setting) (program : Program)
    (buffer : Option (List Number)) (width : Option Int) : Outcome :=
  let arithmetic := domain.arithmetic
  let finished := run arithmetic setting program
  match finished.result with
  | .error cause => ⟨.error cause, finished.log, buffer.getD []⟩
  | .ok machine =>
    let values := machine.values.map arithmetic.output
    let top : Except Fault Number := machine.topValue.map arithmetic.output
    match buffer with
    | none => ⟨top, finished.log, []⟩
    | some buffer =>
      let count := outputCount width values.length
      let (copied, buffer) := copyOut (values.drop (values.length - count)) buffer
      match copied with
      | .ok () => ⟨top, finished.log, buffer⟩
      | .error cause => ⟨.error cause, finished.log, buffer⟩

end Evaluation

end Formulary
