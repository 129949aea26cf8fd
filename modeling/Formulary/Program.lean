import Formulary.Step

/-!
# Programs

A program is a sequence of steps none of which takes more values from the stack than the steps
before it left there. What that costs is known before the program runs: the deepest the stack
gets, the number of values left at the end, and which inputs are read.
-/

namespace Formulary

/-- What is known of a program without running it. -/
structure Shape where
  /-- The deepest the stack gets. -/
  depth : Nat := 0
  /-- The number of values on the stack after the last step. -/
  height : Nat := 0
  /-- Whether a step reads a slot or a cell. -/
  usesInputs : Bool := false
  /-- The highest slot that a step reads; zero when none does. -/
  argumentCount : Nat := 0
  deriving DecidableEq, Repr

namespace Shape

/-- The height after a step. -/
def heightAfter (height : Nat) (step : Step) : Nat :=
  (height - step.pops + step.pushes).toNat

/-- The shape after one more step, which must not take more values than there are. -/
def extend (index : Nat) (shape : Shape) (step : Step) : Except StepError Shape :=
  if (shape.height : Int) < step.pops then
    .error (.underflow index step.opcode step.pops shape.height)
  else
    let height := heightAfter shape.height step
    let depth := max shape.depth height
    match step with
    | .argument slot => .ok ⟨depth, height, true, max shape.argumentCount slot.val⟩
    | .external _ => .ok ⟨depth, height, true, shape.argumentCount⟩
    | _ => .ok ⟨depth, height, shape.usesInputs, shape.argumentCount⟩

/-- The shape after further steps, of which the first has the given index. -/
def extendAll (index : Nat) (shape : Shape) : List Step → Except StepError Shape
  | [] => .ok shape
  | step :: rest =>
    match extend index shape step with
    | .error error => .error error
    | .ok next => extendAll (index + 1) next rest

/-- The shape of a sequence of steps. -/
def ofSteps (steps : List Step) : Except StepError Shape :=
  extendAll 0 {} steps

end Shape

/-- A program with its shape. -/
structure Program where
  steps : List Step
  shape : Shape
  shape_eq : Shape.ofSteps steps = .ok shape

namespace Program

/-- The program of a sequence of steps, unless one of them takes too many values. -/
def ofSteps (steps : List Step) : Except StepError Program :=
  match found : Shape.ofSteps steps with
  | .ok shape => .ok ⟨steps, shape, found⟩
  | .error error => .error error

/-- The program without steps. -/
def empty : Program := ⟨[], {}, rfl⟩

/-- Whether a program has no steps. -/
def isEmpty (program : Program) : Bool := program.steps.isEmpty

/-- The number of steps. -/
def size (program : Program) : Nat := program.steps.length

/-- The program with further steps at the end. -/
def append (program : Program) (steps : List Step) : Except StepError Program :=
  ofSteps (program.steps ++ steps)

/-- Adds a cell to a list of cells unless it is there. -/
def noteCell (cells : List Cell) : Step → List Cell
  | .external cell => if cell ∈ cells then cells else cells ++ [cell]
  | _ => cells

/-- The cells that a program reads, in the order of their first use. -/
def cells (program : Program) : List Cell :=
  program.steps.foldl noteCell []

/-- Whether two sequences of steps are the same step by step. -/
def sameSteps : List Step → List Step → Bool
  | [], [] => true
  | left :: leftRest, right :: rightRest => left.same right && sameSteps leftRest rightRest
  | _, _ => false

/-- Whether two programs are the same step by step. -/
def same (left right : Program) : Bool :=
  sameSteps left.steps right.steps

end Program

/-- The width of a result, and whether it is boolean or complex. -/
structure ResultType where
  width : Int := 1
  isBoolean : Bool := false
  isComplex : Bool := false
  deriving DecidableEq, Repr

end Formulary
