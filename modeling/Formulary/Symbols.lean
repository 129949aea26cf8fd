import Formulary.Number

/-!
# Symbol tables

A formula refers by name to constants, to cells that a host may write between evaluations, and to
arguments, which name consecutive slots of an input point. The tables keep the order in which
names were first entered; a later entry under the same name takes the place of the earlier one.
-/

namespace Formulary

/-- A positive whole number: a slot or a width. -/
abbrev Positive := { value : Nat // 0 < value }

/-- A constant is a number together with the mark of its entry. A NaN is equal to nothing by its
value, so two constants that hold one are told apart, or recognised as the same, by the mark. -/
structure Constant where
  value : Number
  entry : Nat := 0

/-- Whether two constants are the same: their values are equal, or they are one entry. -/
def Constant.same (left right : Constant) : Bool :=
  left.value.equal right.value || (left.entry == right.entry && left.entry != 0)

/-- A cell of the host, by its number. What it holds is looked up at every evaluation. -/
structure Cell where
  number : Nat
  deriving DecidableEq, Repr

/-- What the cells hold. -/
abbrev Store := Cell → Number

/-- An input argument: its first slot, counted from one, its width, and whether it is complex. -/
structure Argument where
  slot : Positive
  width : Positive
  isComplex : Bool
  deriving DecidableEq, Repr

/-- Why an argument cannot be declared. -/
inductive ArgumentError
  | slot (given : Int)
  | width (given : Int)
  deriving DecidableEq, Repr

/-- What is said about an argument that cannot be declared. -/
def ArgumentError.message : ArgumentError → String
  | slot given => s!"argument slot must be >= 1, got {given}"
  | width given => s!"argument width must be >= 1, got {given}"

/-- A positive whole number from an integer. -/
def positive? (value : Int) : Option Positive :=
  if bound : 0 < value.toNat then some ⟨value.toNat, bound⟩ else none

theorem positive?_eq_none_iff (value : Int) : positive? value = none ↔ value < 1 := by
  simp only [positive?]
  split <;> simp <;> omega

/-- An argument with the given slot and width; the slot is checked first. -/
def Argument.declare (slot width : Int) (isComplex : Bool) : Except ArgumentError Argument :=
  match positive? slot, positive? width with
  | none, _ => .error (.slot slot)
  | _, none => .error (.width width)
  | some slot, some width => .ok ⟨slot, width, isComplex⟩

/-- The slots of an argument, in rising order. -/
def Argument.slots (argument : Argument) : List Positive :=
  (List.range argument.width.val).map fun offset =>
    ⟨argument.slot.val + offset, Nat.lt_of_lt_of_le argument.slot.property (Nat.le_add_right _ _)⟩

theorem Argument.length_slots (argument : Argument) :
    argument.slots.length = argument.width.val := by
  simp [Argument.slots]

/-- A table of names in the order of their first entry. -/
abbrev Table (α : Type) := List (String × α)

namespace Table

/-- Enters a value under a name: in the place of the name if it is there, and else at the end. -/
def insert {α : Type} (table : Table α) (name : String) (value : α) : Table α :=
  match table with
  | [] => [(name, value)]
  | entry :: rest =>
    if entry.1 = name then (name, value) :: rest else entry :: insert rest name value

/-- The value under a name. -/
def find? {α : Type} (table : Table α) (name : String) : Option α :=
  match table with
  | [] => none
  | entry :: rest => if entry.1 = name then some entry.2 else find? rest name

/-- Looking up what was just entered gives it; other names are not affected. -/
theorem find?_insert {α : Type} (table : Table α) (name other : String) (value : α) :
    (table.insert name value).find? other =
      if name = other then some value else table.find? other := by
  induction table with
  | nil => simp [insert, find?]
  | cons entry rest inductionHypothesis =>
    simp only [insert]
    split
    · rename_i atEntry
      simp only [find?, atEntry]
      split <;> rfl
    · rename_i elsewhere
      simp only [find?, inductionHypothesis]
      split
      · rename_i atOther
        have : ¬ name = other := fun equal => elsewhere (atOther.trans equal.symm)
        simp [this]
      · rfl

end Table

/-- The names that a formula may use. -/
structure SymbolTables where
  constants : Table Constant := []
  cells : Table Cell := []
  arguments : Table Argument := []

namespace SymbolTables

/-- The display name of a component of an argument: the bare name when there is only one. -/
def componentName (name : String) (argument : Argument) (offset : Nat) : String :=
  if argument.width.val = 1 then name else s!"{name}[{offset}]"

/-- The slots of one argument with their display names. -/
def componentNames (name : String) (argument : Argument) : List (Nat × String) :=
  (List.range argument.width.val).map fun offset =>
    (argument.slot.val + offset, componentName name argument offset)

/-- The slots of all arguments with their display names, in the order of the table. Where ranges
overlap, the last name of a slot counts. -/
def slotEntries (tables : SymbolTables) : List (Nat × String) :=
  tables.arguments.flatMap fun entry => componentNames entry.1 entry.2

/-- The display name of a slot, if an argument covers it. -/
def slotName? (tables : SymbolTables) (slot : Nat) : Option String :=
  (tables.slotEntries.reverse.find? fun entry => entry.1 == slot).map Prod.snd

/-- The display name of a cell, if a variable is bound to it; of several names the last. -/
def cellName? (tables : SymbolTables) (cell : Cell) : Option String :=
  (tables.cells.reverse.find? fun entry => entry.2 == cell).map Prod.fst

end SymbolTables

end Formulary
