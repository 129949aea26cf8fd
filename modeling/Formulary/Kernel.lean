import Formulary.Arithmetic.Flushed
import Formulary.Evaluation

/-!
# Kernels

A kernel runs a program on a growing list of values instead of a work area. It takes the input
point and the values of the program's cells as arguments, so that it can be run on many points at
once. A slot beyond the end of a nonempty point reads its last entry, and the unit step of an
undefined value is one; otherwise a kernel computes what an evaluation computes, in an arithmetic
of its own: without subnormal numbers, and without repairs for infinite or undefined parts.

A kernel can be run step by step. It can also be prepared as a whole, for one point or for many;
then a fault shows while it is prepared, before anything is logged.
-/

namespace Formulary

/-- The warning about an illegal complex value in a kernel. -/
def Substitute.kernelMessage (substitute : Substitute) : String :=
  s!"illegal complex value in lowered kernel; {substitute.describe}"

/-- A program made ready for a domain and a tolerance. -/
structure Kernel where
  program : Program
  domain : Domain
  tolerance : Number

namespace Kernel

variable {α : Type}

/-- The values of cells, each with the mark that an imaginary part was given up for it. -/
abbrev CellValues (α : Type) := List (Cell × α × Bool)

/-- The value of a cell. -/
def cellValue (arithmetic : Arithmetic α) (cells : CellValues α) (cell : Cell) : α × Bool :=
  match cells.find? fun entry => entry.1 == cell with
  | some entry => entry.2
  | none => (arithmetic.zero, false)

/-- The builtin functions of a kernel: the unit step tells only values below zero from others. -/
def call (arithmetic : Arithmetic α) (function : Builtin) (values : List α) : α :=
  match function, values with
  | .step, [value] => arithmetic.truth [value] (!arithmetic.isNegative value)
  | function, values => arithmetic.call function values

/-- The values below the topmost `count` values of a stack, and those values. -/
def splitTop (stack : List α) (count : Nat) : List α × List α :=
  (stack.take (stack.length - count), stack.drop (stack.length - count))

/-- An operation on two groups of values, component by component. A group of one value goes with
every component of the other group, and otherwise the shorter group is extended by zeros. -/
def componentwise (zero : α) (apply : α → α → α) : (left right : List α) → List α
  | left, [scalar] => left.map fun value => apply value scalar
  | [scalar], right => right.map fun value => apply scalar value
  | left, right =>
    let width := max left.length right.length
    let extend := fun (group : List α) => group ++ List.replicate (width - group.length) zero
    List.zipWith apply (extend left) (extend right)

/-- A vector operator on two groups of values: the dot product is summed over the shorter group,
and the other operators work component by component. -/
def vector (arithmetic : Arithmetic α) (operator : VectorOperator) (left right : List α) :
    List α :=
  if operator = .dot then
    [(left.zip right).foldl
      (fun total factors => arithmetic.add total (arithmetic.mul factors.1 factors.2))
      arithmetic.zero]
  else componentwise arithmetic.zero (arithmetic.apply operator.componentwise) left right

/-- The number of slots that have an index. -/
def slotLimit : Nat := Nat.pow 2 63

/-- The entry of a point nearest to an index, which counts as a signed word of 32 bits. -/
def nearestEntry (point : List α) (index : Nat) : Except Fault α :=
  match point[min (Int32.ofNat index).toInt.toNat (point.length - 1)]? with
  | some value => .ok value
  | none => .error .shortInput

/-- The entry of a point for a slot. Beyond the end it is an entry nearby, if the slot has an
index. -/
def entry (point : List α) (slot : Nat) : Except Fault α :=
  match point[slot - 1]? with
  | some value => .ok value
  | none =>
    if slotLimit < slot then .error .tooLarge else nearestEntry point (slot - 1)

/-- The operand of a boolean operator: its real part. -/
def realOperand (arithmetic : Arithmetic α) (value : α) : Logged Substitute α := do
  Logged.noteIf (arithmetic.isImaginary value) .realPart
  return arithmetic.realPart value

/-- The operand of a comparison: its real part, or zero when it has an imaginary part. -/
def comparedOperand (arithmetic : Arithmetic α) (value : α) : Logged Substitute α := do
  Logged.noteIf (arithmetic.isImaginary value) .zero
  return if arithmetic.isImaginary value then arithmetic.zero else arithmetic.realPart value

/-- The value of a scalar operator with two operands. -/
def binary (arithmetic : Arithmetic α) (tolerance : Number) (operator : Operator)
    (left right : α) : Logged Substitute α :=
  match operator with
  | .arithmetical found => return arithmetic.apply found left right
  | .logical found => do
    let first ← realOperand arithmetic left
    let second ← realOperand arithmetic right
    let flag ← Logged.ofExcept (arithmetic.connect tolerance found first second)
    return arithmetic.truth [left, right] flag
  | .comparison found => do
    let first ← comparedOperand arithmetic left
    let second ← comparedOperand arithmetic right
    let flag ← Logged.ofExcept (arithmetic.compare tolerance found first second)
    return arithmetic.truth [left, right] flag
  | .not => return left

/-- One step on a stack that grows at its end. -/
def exec (arithmetic : Arithmetic α) (tolerance : Number) (point : List α)
    (cells : CellValues α) (step : Step) (stack : List α) : Logged Substitute (List α) :=
  match step with
  | .constant constant => do
    let (value, degraded) ← Logged.ofExcept (arithmetic.stored constant.value)
    Logged.noteIf degraded .zero
    return stack ++ [value]
  | .argument slot => do
    let value ← Logged.ofExcept (entry point slot.val)
    return stack ++ [value]
  | .external cell => do
    let (value, degraded) := cellValue arithmetic cells cell
    Logged.noteIf degraded .zero
    return stack ++ [value]
  | .call function =>
    let (below, values) := splitTop stack function.arity
    return below ++ [call arithmetic function values]
  | .negate width =>
    let (below, values) := splitTop stack width.toNat
    return below ++ values.map arithmetic.neg
  | .vector operator left right =>
    let (below, second) := splitTop stack right.val
    let (below, first) := splitTop below left.val
    return below ++ vector arithmetic operator first second
  | .operator .not =>
    match splitTop stack 1 with
    | (below, [value]) => do
      let operand ← realOperand arithmetic value
      let flag ← Logged.ofExcept (arithmetic.negate tolerance operand)
      return below ++ [arithmetic.truth [value] flag]
    | _ => Logged.fault .emptyStack
  | .operator operator =>
    match splitTop stack 2 with
    | (below, [left, right]) => do
      let value ← binary arithmetic tolerance operator left right
      return below ++ [value]
    | _ => Logged.fault .emptyStack

/-- Steps in order. -/
def execAll (arithmetic : Arithmetic α) (tolerance : Number) (point : List α)
    (cells : CellValues α) : List Step → List α → Logged Substitute (List α)
  | [], stack => return stack
  | step :: rest, stack => do
    let next ← exec arithmetic tolerance point cells step stack
    execAll arithmetic tolerance point cells rest next

/-- What a kernel gives for one point: a scalar when the program leaves one value by its shape, and
otherwise the whole stack. -/
inductive Output (α : Type)
  | scalar (value : α)
  | vector (values : List α)

/-- The output for the stack at the end of a program. -/
def Output.ofStack (height : Nat) (stack : List α) : Except Fault (Output α) :=
  if height = 1 then
    match stack.getLast? with
    | some value => .ok (.scalar value)
    | none => .error .emptyStack
  else if stack.isEmpty then .error .noValues
  else .ok (.vector stack)

/-- Every value of an output changed by a function. -/
def Output.map {β : Type} (change : α → β) : Output α → Output β
  | .scalar value => .scalar (change value)
  | .vector values => .vector (values.map change)

/-- A program at one point. -/
def run (arithmetic : Arithmetic α) (tolerance : Number) (program : Program) (point : List α)
    (cells : CellValues α) : Logged Substitute (Output α) := do
  let stack ← execAll arithmetic tolerance point cells program.steps []
  Logged.ofExcept (Output.ofStack program.shape.height stack)

/-- The scalars of a point. -/
def readPoint (arithmetic : Arithmetic α) (numbers : List Number) : Except Fault (List α) :=
  numbers.mapM arithmetic.input

/-- The scalars of a program's cells, in the order of their first use. -/
def readCells (arithmetic : Arithmetic α) (store : Store) (program : Program) :
    Except Fault (CellValues α) :=
  program.cells.mapM fun cell => do
    let (value, degraded) ← arithmetic.stored (store cell)
    return (cell, value, degraded)

/-- The number of slots that a kernel reads. -/
def slotCount (kernel : Kernel) : Nat := kernel.program.shape.argumentCount

/-- The kernel at one point, step by step, with what the cells hold now. -/
def evaluate (kernel : Kernel) (store : Store) (numbers : List Number) :
    Logged Substitute (Output Number) := do
  let arithmetic := kernel.domain.flushedArithmetic
  let point ← Logged.ofExcept (readPoint arithmetic numbers)
  let cells ← Logged.ofExcept (readCells arithmetic store kernel.program)
  let output ← run arithmetic kernel.tolerance kernel.program point cells
  return output.map arithmetic.output

/-- The kernel at one point, prepared as a whole. -/
def evaluatePrepared (kernel : Kernel) (store : Store) (numbers : List Number) :
    Logged Substitute (Output Number) :=
  (kernel.evaluate store numbers).silentFault

/-- A point of a batch: a single number is a point of one slot. -/
inductive BatchPoint
  | single (value : Number)
  | several (values : List Number)

/-- The length of a point, if it is a list. -/
def BatchPoint.length? : BatchPoint → Option Nat
  | single _ => none
  | several values => some values.length

/-- The entries of a point. -/
def BatchPoint.values : BatchPoint → List Number
  | single value => [value]
  | several values => values

/-- The points of a batch, which are either all single numbers or lists of one length. -/
def batchPoints (points : List BatchPoint) : Except Fault (List (List Number)) :=
  let lengths := points.map BatchPoint.length?
  if lengths.all (· == lengths.headD none) then .ok (points.map BatchPoint.values)
  else .error (.raggedPoints points.length)

/-- The kernel at several points. Without points only that part of the program is examined which
depends on no slot. -/
def runBatch (kernel : Kernel) (store : Store) (points : List (List Number)) :
    Logged Substitute (List (Output Number)) := do
  let arithmetic := kernel.domain.flushedArithmetic
  let points ← Logged.ofExcept (points.mapM (readPoint arithmetic))
  match points with
  | [] =>
    let cells ← Logged.ofExcept (readCells arithmetic.lifted store kernel.program)
    let _ ← run arithmetic.lifted kernel.tolerance kernel.program [none] cells
    return []
  | points =>
    let cells ← Logged.ofExcept (readCells arithmetic store kernel.program)
    let outputs ← points.mapM fun point =>
      run arithmetic kernel.tolerance kernel.program point cells
    return outputs.map fun output => output.map arithmetic.output

/-- The kernel at the points of a batch, prepared as a whole, with what the cells hold now. -/
def evaluateBatch (kernel : Kernel) (store : Store) (points : List BatchPoint) :
    Logged Substitute (List (Output Number)) :=
  match batchPoints points with
  | .ok points => (kernel.runBatch store points).silentFault
  | .error cause => Logged.fault cause

end Kernel

end Formulary
