import Formulary.Program

/-!
# Listings

A listing shows a program with one numbered line for each step. Slots and cells appear under their
display names, where they have one.
-/

namespace Formulary

/-- The display names of slots and cells, and what unnamed cells hold. -/
structure Naming where
  slot? : Nat → Option String
  cell? : Cell → Option String
  store : Store

namespace Naming

/-- The naming that symbol tables give. -/
def ofTables (tables : SymbolTables) (store : Store) : Naming :=
  ⟨tables.slotName?, tables.cellName?, store⟩

/-- The name of a slot. -/
def slot (naming : Naming) (number : Nat) : String :=
  (naming.slot? number).getD s!"x[{number}]"

/-- The name of a cell; an unnamed cell is shown by what it holds. -/
def cell (naming : Naming) (named : Cell) : String :=
  (naming.cell? named).getD s!"<cell {(naming.store named).text}>"

end Naming

/-- The text of a constant in a formula. -/
def constantText : Number → String
  | .complex value =>
    if value.re == 0 then s!"{realText value.im}*I"
    else s!"({realText value.re}+{realText value.im}*I)"
  | number => realText number.toFloat

namespace Step

/-- The line that describes a step. -/
def describe (naming : Naming) : Step → String
  | .constant pushed => s!"const {constantText pushed.value}"
  | .argument slot => s!"arg {slot.val} ({naming.slot slot.val})"
  | .external named => s!"glob {naming.cell named}"
  | .call called => s!"call {called.name}/{called.arity}"
  | .negate width => if width = 1 then "neg" else s!"neg width={width}"
  | .operator found => found.opcode.mnemonic
  | .vector found left right => s!"{found.opcode.mnemonic} {left.val}x{right.val}"

/-- Whether a step pushes a whole number that has no text as a double. -/
def isUnwritable : Step → Bool
  | .constant pushed => pushed.value.isTooLarge
  | _ => false

end Step

namespace Program

/-- A text set flush right in a field. -/
def flushRight (width : Nat) (text : String) : String :=
  String.ofList (List.replicate (width - text.length) ' ') ++ text

/-- The lines of a listing; the numbers are as wide as the last one. A program without steps has
one empty line. -/
def listing (program : Program) (naming : Naming) : List String :=
  let width := (toString (program.size - 1)).length
  if program.isEmpty then [""]
  else program.steps.zipIdx.map fun (step, index) =>
    s!"{flushRight width (toString index)}  {step.describe naming}"

/-- Whether every constant of a program can be written. -/
def isWritable (program : Program) : Bool :=
  program.steps.all fun step => !step.isUnwritable

end Program

end Formulary
