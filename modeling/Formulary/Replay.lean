import Formulary.Fault
import Formulary.Listing

/-!
# Replaying a program as a formula

A program is replayed on a stack of formulas instead of values. Each entry stands for a group of
values of a known width. An operand of a step is put together from the topmost entries; where an
entry stands for more values than are wanted, it is split into its components. The formula that
results is written with all its parentheses.
-/

namespace Formulary

/-- A formula made by a replay. -/
inductive Replayed
  | constant (value : Constant)
  | argument (slot : Positive)
  | cell (named : Cell)
  | call (function : Builtin) (arguments : List Replayed)
  | negate (operand : Replayed)
  | not (operand : Replayed)
  | operator (operator : Operator) (left right : Replayed)
  | vector (operator : VectorOperator) (left right : Replayed)
  /-- Several groups side by side, or none. -/
  | tuple (parts : List Replayed)
  /-- One value of a group. -/
  | component (whole : Replayed) (index : Nat)

/-- The sign of a vector operator in a formula. -/
def VectorOperator.sign : VectorOperator → String
  | .add => "+"
  | .sub => "-"
  | .scaleRight => "*"
  | .scaleLeft => "*"
  | .dot => "*"
  | .divide => "/"

namespace Replayed

/-- The formula as text. -/
def text (naming : Naming) : Replayed → String
  | .constant value => constantText value.value
  | .argument slot => naming.slot slot.val
  | .cell named => naming.cell named
  | .call function arguments =>
    function.name ++ "(" ++ ", ".intercalate (arguments.map (text naming)) ++ ")"
  | .negate operand => s!"(-{operand.text naming})"
  | .not operand => s!"(not {operand.text naming})"
  | .operator found left right =>
    s!"({left.text naming} {found.opcode.text} {right.text naming})"
  | .vector found left right => s!"({left.text naming} {found.sign} {right.text naming})"
  | .tuple parts => "(" ++ ", ".intercalate (parts.map (text naming)) ++ ")"
  | .component whole index => s!"{whole.text naming}[{index}]"

/-- Parts side by side; a single part stands for itself. -/
def ofParts : List Replayed → Replayed
  | [part] => part
  | parts => .tuple parts

end Replayed

/-- An entry of the stack: a formula and the width of the group that it stands for. -/
structure ReplayEntry where
  formula : Replayed
  width : Int

namespace Replay

/-- The components of an entry from one index up to another. -/
def components (formula : Replayed) (first last : Nat) : List Replayed :=
  (List.range' first (last - first)).map fun index => .component formula index

/-- Takes a group of values from the top of a stack, which is given from the top down. `taken`
values are in `parts` already, the one lowest on the stack first. -/
def takeGroup (width : Int) : (taken : Int) → (parts : List Replayed) → List ReplayEntry →
    Except Fault (List Replayed × List ReplayEntry)
  | taken, parts, [] => if taken < width then .error .emptyStack else .ok (parts, [])
  | taken, parts, entry :: below =>
    if taken < width then
      if width < taken + entry.width then
        let kept := (taken + entry.width - width).toNat
        let rest := (components entry.formula 0 kept).reverse.map fun part => ⟨part, 1⟩
        .ok (components entry.formula kept entry.width.toNat ++ parts, rest ++ below)
      else takeGroup width (taken + entry.width) (entry.formula :: parts) below
    else .ok (parts, entry :: below)

/-- Takes a group of values from the top of a stack as one formula. -/
def popGroup (width : Int) (stack : List ReplayEntry) :
    Except Fault (Replayed × List ReplayEntry) := do
  let (parts, below) ← takeGroup width 0 [] stack
  return (.ofParts parts, below)

/-- Takes several values from the top of a stack, one by one; the one lowest on the stack comes
first. -/
def popScalars : (count : Nat) → List Replayed → List ReplayEntry →
    Except Fault (List Replayed × List ReplayEntry)
  | 0, taken, stack => .ok (taken, stack)
  | count + 1, taken, stack => do
    let (value, below) ← popGroup 1 stack
    popScalars count (value :: taken) below

/-- One step, on a stack given from the top down. -/
def step (step : Step) (stack : List ReplayEntry) : Except Fault (List ReplayEntry) :=
  match step with
  | .constant value =>
    if value.value.isTooLarge then .error .tooLarge else .ok (⟨.constant value, 1⟩ :: stack)
  | .argument slot => .ok (⟨.argument slot, 1⟩ :: stack)
  | .external cell => .ok (⟨.cell cell, 1⟩ :: stack)
  | .call function => do
    let (arguments, below) ← popScalars function.arity [] stack
    return ⟨.call function arguments, 1⟩ :: below
  | .negate width => do
    let (operand, below) ← popGroup width stack
    return ⟨.negate operand, width⟩ :: below
  | .vector operator left right => do
    let (second, below) ← popGroup right.val stack
    let (first, below) ← popGroup left.val below
    return ⟨.vector operator first second, operator.resultWidth left.val right.val⟩ :: below
  | .operator .not => do
    let (operand, below) ← popGroup 1 stack
    return ⟨.not operand, 1⟩ :: below
  | .operator operator => do
    let (second, below) ← popGroup 1 stack
    let (first, below) ← popGroup 1 below
    return ⟨.operator operator first second, 1⟩ :: below

/-- Steps in order. -/
def run : List Step → List ReplayEntry → Except Fault (List ReplayEntry)
  | [], stack => .ok stack
  | first :: rest, stack => do
    let next ← step first stack
    run rest next

end Replay

/-- The formula that a program stands for. -/
def Program.replay (program : Program) : Except Fault Replayed := do
  let stack ← Replay.run program.steps []
  return .ofParts (stack.reverse.map ReplayEntry.formula)

/-- The text of the formula that a program stands for. -/
def Program.formulaText (program : Program) (naming : Naming) : Except Fault String := do
  let formula ← program.replay
  return formula.text naming

end Formulary
