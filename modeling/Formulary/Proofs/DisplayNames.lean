import Formulary.Proofs.Origins
import Formulary.Proofs.Spelling
import Formulary.Symbols
import Mathlib

/-!
# Display names

The display name of a slot or a cell is looked up as the argument or the cell that it stands for, if
the tables let no name hide another one. Whatever is scanned as an argument, a cell or a function is
found again under the name by which it is shown.
-/

namespace Formulary

/-- Symbol tables whose display names can be read back: every argument is a scalar with a slot of
its own, and no name is entered twice, is a keyword or the imaginary unit, or is no name at all. -/
structure SymbolTables.Readable (tables : SymbolTables) : Prop where
  scalars : ∀ entry ∈ tables.arguments, entry.2.width.val = 1
  slots : (tables.arguments.map fun entry => entry.2.slot.val).Nodup
  argumentNames : (tables.arguments.map Prod.fst).Nodup
  cellNames : (tables.cells.map Prod.fst).Nodup
  apart : ∀ name ∈ tables.arguments.map Prod.fst, name ∉ tables.cells.map Prod.fst
  words : ∀ name ∈ tables.arguments.map Prod.fst ++ tables.cells.map Prod.fst, Lexer.IsWord name
  free : ∀ name ∈ tables.arguments.map Prod.fst ++ tables.cells.map Prod.fst,
    name ∉ ["and", "or", "not", "I"]

namespace Table

variable {α : Type} {table : Table α} {name : String} {value : α}

theorem find?_of_mem (distinct : (table.map Prod.fst).Nodup) (member : (name, value) ∈ table) :
    table.find? name = some value := by
  induction table with
  | nil => cases member
  | cons entry rest inductionHypothesis =>
      rw [List.map_cons, List.nodup_cons] at distinct
      rcases List.mem_cons.mp member with rfl | behind
      · exact if_pos rfl
      · have other : entry.1 ≠ name := by
          rintro rfl
          exact distinct.1 (List.mem_map.mpr ⟨_, behind, rfl⟩)
        rw [find?, if_neg other]
        exact inductionHypothesis distinct.2 behind

theorem find?_eq_none (absent : name ∉ table.map Prod.fst) : table.find? name = none := by
  induction table with
  | nil => rfl
  | cons entry rest inductionHypothesis =>
      rw [List.map_cons, List.mem_cons, not_or] at absent
      rw [find?, if_neg (Ne.symm absent.1)]
      exact inductionHypothesis absent.2

end Table

namespace SymbolTables.Readable

variable {tables : SymbolTables} (readable : tables.Readable)

include readable

theorem slotEntries_eq :
    tables.slotEntries = tables.arguments.map fun entry => (entry.2.slot.val, entry.1) := by
  rw [slotEntries, ← List.flatMap_pure_eq_map]
  refine List.flatMap_congr fun entry member => ?_
  have scalar := readable.scalars entry member
  simp [componentNames, componentName, scalar]

/-- The slot of an argument is shown by the name of the argument. -/
theorem slotName?_eq {name : String} {declared : Argument}
    (member : (name, declared) ∈ tables.arguments) :
    tables.slotName? declared.slot.val = some name := by
  have shown : (declared.slot.val, name) ∈ tables.slotEntries.reverse := by
    rw [readable.slotEntries_eq, List.mem_reverse]
    exact List.mem_map.mpr ⟨_, member, rfl⟩
  have some : (tables.slotEntries.reverse.find? fun entry =>
      entry.1 == declared.slot.val).isSome :=
    List.find?_isSome.mpr ⟨_, shown, beq_self_eq_true declared.slot.val⟩
  obtain ⟨found, search⟩ := Option.isSome_iff_exists.mp some
  have slot : found.1 = declared.slot.val := by simpa using List.find?_some search
  have inside := List.mem_of_find?_eq_some search
  rw [readable.slotEntries_eq, List.mem_reverse] at inside
  obtain ⟨entry, entered, rfl⟩ := List.mem_map.mp inside
  have same : entry = (name, declared) :=
    List.inj_on_of_nodup_map readable.slots entered member slot
  rw [slotName?, search, same]
  rfl

omit readable in
/-- A cell that a variable is bound to is shown by the name of such a variable. -/
theorem exists_cellName? {name : String} {named : Cell} (member : (name, named) ∈ tables.cells) :
    ∃ other, tables.cellName? named = some other ∧ (other, named) ∈ tables.cells := by
  have some : (tables.cells.reverse.find? fun entry => entry.2 == named).isSome :=
    List.find?_isSome.mpr ⟨_, List.mem_reverse.mpr member, beq_self_eq_true named⟩
  obtain ⟨found, search⟩ := Option.isSome_iff_exists.mp some
  obtain rfl : found.2 = named := by simpa using List.find?_some search
  exact ⟨found.1, by rw [cellName?, search]; rfl,
    List.mem_reverse.mp (List.mem_of_find?_eq_some search)⟩

end SymbolTables.Readable

/-- A name of an argument that is no keyword and not the imaginary unit stands for the argument. -/
theorem Scope.resolve_of_find? {scope : Scope} {name : String} {declared : Argument}
    (free : name ∉ ["and", "or", "not", "I"])
    (found : scope.symbols.arguments.find? name = some declared) :
    scope.resolve name = some (.argument declared) := by
  simp only [List.mem_cons, List.not_mem_nil, or_false, not_or] at free
  obtain ⟨noAnd, noOr, noNot, noUnit⟩ := free
  rw [resolve, if_neg noAnd, if_neg noOr, if_neg noNot, if_neg noUnit]
  simp only [found]

namespace Scope

variable {scope : Scope} (readable : scope.symbols.Readable) {name : String}

include readable

theorem resolve_argument {declared : Argument}
    (member : (name, declared) ∈ scope.symbols.arguments) :
    scope.resolve name = some (.argument declared) := by
  have free := readable.free name (List.mem_append_left _ (List.mem_map_of_mem member))
  exact resolve_of_find? free (Table.find?_of_mem readable.argumentNames member)

theorem resolve_cell {named : Cell} (member : (name, named) ∈ scope.symbols.cells) :
    scope.resolve name = some (.cell named) := by
  have entered : name ∈ scope.symbols.cells.map Prod.fst := List.mem_map_of_mem member
  have free := readable.free name (List.mem_append_right _ entered)
  have other : scope.symbols.arguments.find? name = none :=
    Table.find?_eq_none fun argument => readable.apart name argument entered
  simp only [List.mem_cons, List.not_mem_nil, or_false, not_or] at free
  obtain ⟨noAnd, noOr, noNot, noUnit⟩ := free
  rw [resolve, if_neg noAnd, if_neg noOr, if_neg noNot, if_neg noUnit]
  simp only [other, Table.find?_of_mem readable.cellNames member]

omit readable

/-- An argument that is offered is in the table. -/
theorem argument_of_offers {declared : Argument} (offers : scope.Offers (.argument declared)) :
    ∃ name, (name, declared) ∈ scope.symbols.arguments := by
  cases offers with
  | symbol read =>
      unfold Lexer.symbol? at read
      split at read <;> cases read
  | name name resolved =>
      cases names_of_resolve resolved with
      | argument entered => exact ⟨name, Table.mem_of_find? entered⟩

theorem cell_of_offers {named : Cell} (offers : scope.Offers (.cell named)) :
    ∃ name, (name, named) ∈ scope.symbols.cells := by
  cases offers with
  | symbol read =>
      unfold Lexer.symbol? at read
      split at read <;> cases read
  | name name resolved =>
      cases names_of_resolve resolved with
      | cell entered => exact ⟨name, Table.mem_of_find? entered⟩

/-- A function that is offered is found under its own name. -/
theorem resolve_function {function : Builtin} (offers : scope.Offers (.function function)) :
    scope.resolve function.name = some (.function function) := by
  cases offers with
  | symbol read =>
      unfold Lexer.symbol? at read
      split at read <;> cases read
  | name name resolved =>
      cases names_of_resolve resolved with
      | function known =>
          obtain rfl : function.name = name := by
            unfold Builtin.find? at known
            simpa using List.find?_some known
          exact resolved

end Scope

end Formulary
