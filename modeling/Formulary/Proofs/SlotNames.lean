import Formulary.Proofs.DisplayNames
import Formulary.Proofs.Histories
import Formulary.Proofs.ReadBack

/-!
# Names of slots

Arguments may overlap. Display names are written argument by argument and component by component,
and each takes the place of the name that its slot had, so a slot is displayed by the last argument
in the table that covers it. The table is in the order of the first declarations: an argument that
is declared again keeps its place, and does not win back a slot from an argument behind it.

A display name says which component of which argument it is. An argument that is read as a formula
pushes its components in order, and at the place of the component that the display name tells it
pushes the slot that the name is displayed for.
-/

namespace Formulary

/-! ## Tables as they are entered -/

namespace Table

variable {α : Type}

/-- The table after entries in order. -/
def enterAll (entries : List (String × α)) : Table α :=
  entries.foldl (fun table entry => table.insert entry.1 entry.2) []

theorem enterAll_append (entries : List (String × α)) (entry : String × α) :
    enterAll (entries ++ [entry]) = (enterAll entries).insert entry.1 entry.2 :=
  List.foldl_append

/-- A name that is entered again keeps its place, and a new one comes last. -/
theorem map_fst_insert (table : Table α) (name : String) (value : α) :
    (table.insert name value).map Prod.fst =
      table.map Prod.fst ++ if name ∈ table.map Prod.fst then [] else [name] := by
  induction table with
  | nil => rfl
  | cons entry rest inductionHypothesis =>
      by_cases here : entry.1 = name
      · simp [insert, here]
      · have other : name ≠ entry.1 := Ne.symm here
        simp only [insert, if_neg here, List.map_cons, inductionHypothesis, List.mem_cons, other,
          false_or, List.cons_append]

/-- The names of a table are in the order in which they were first entered. -/
theorem map_fst_enterAll (entries : List (String × α)) :
    (enterAll entries).map Prod.fst = (entries.map Prod.fst).eraseDups := by
  induction entries using List.reverseRecOn with
  | nil => rfl
  | append_singleton entries entry inductionHypothesis =>
      have known : entry.1 ∈ (enterAll entries).map Prod.fst ↔ entry.1 ∈ entries.map Prod.fst := by
        rw [inductionHypothesis, List.mem_eraseDups]
      rw [enterAll_append, map_fst_insert, List.map_append, List.eraseDups_append,
        ← inductionHypothesis]
      by_cases again : entry.1 ∈ entries.map Prod.fst
      · simp [known.mpr again, List.cons_removeAll, again]
      · simp [mt known.mp again, List.cons_removeAll, again, List.eraseDups_cons]

/-- The value under a name is the one that was entered last. -/
theorem find?_enterAll (entries : List (String × α)) (name : String) :
    (enterAll entries).find? name =
      (entries.reverse.find? fun entry => entry.1 == name).map Prod.snd := by
  induction entries using List.reverseRecOn with
  | nil => rfl
  | append_singleton entries entry inductionHypothesis =>
      rw [enterAll_append, find?_insert, inductionHypothesis, List.reverse_append,
        List.reverse_singleton, List.singleton_append, List.find?_cons]
      by_cases here : entry.1 = name
      · simp [here]
      · simp [here, beq_false_of_ne here]

/-- A table without doubled names has none after one more entry. -/
theorem nodup_insert {table : Table α} (distinct : (table.map Prod.fst).Nodup) (name : String)
    (value : α) : ((table.insert name value).map Prod.fst).Nodup := by
  rw [map_fst_insert]
  split
  case isTrue => rwa [List.append_nil]
  case isFalse absent =>
      refine List.nodup_append.mpr ⟨distinct, List.nodup_singleton name, ?_⟩
      rintro other member single inSingle rfl
      exact absent (List.mem_singleton.mp inSingle ▸ member)

theorem nodup_enterAll (entries : List (String × α)) : ((enterAll entries).map Prod.fst).Nodup := by
  induction entries using List.reverseRecOn with
  | nil => exact List.nodup_nil
  | append_singleton entries entry inductionHypothesis =>
      rw [enterAll_append]
      exact nodup_insert inductionHypothesis _ _

end Table

/-! ## Declarations of arguments -/

/-- The argument that an edit declares, with its name. -/
def declaration? : Edit × Option Failure → Option (String × Argument)
  | (.defineArgument name slot width isComplex, _) =>
    (Argument.declare slot width isComplex).toOption.map fun declared => (name, declared)
  | _ => none

namespace Formula

/-- Only an edit that enters a name changes what names stand for. -/
theorem Edited.scope_eq {formula changed : Formula} {edit : Edit} {failure : Option Failure}
    (edited : formula.Edited edit changed failure) (other : edit.defines = false) :
    changed.scope = formula.scope := by
  cases edited with
  | defined defines change => rw [other] at defines; cases defines
  | appended appends extended =>
      obtain ⟨program, -, rfl⟩ := append_eq_ok extended
      rfl
  | _ => rfl

/-- An edit that declares an argument enters it, and no other edit changes the arguments. -/
theorem arguments_edit (objects : Nat → Number) (formula : Formula) (edit : Edit) :
    (formula.edit objects edit).1.scope.symbols.arguments =
      ((declaration? (edit, (formula.edit objects edit).2)).elim formula.scope.symbols.arguments
        fun entry => formula.scope.symbols.arguments.insert entry.1 entry.2) := by
  have kept := (formula.edited objects edit).scope_eq
  cases edit with
  | defineConstant name object => rfl
  | defineVariable name binding => cases binding <;> rfl
  | defineArgument name slot width isComplex =>
      simp only [Formula.edit, defineArgument, declaration?]
      cases Argument.declare slot width isComplex <;> rfl
  | _ => exact congrArg (fun scope : Scope => scope.symbols.arguments) (kept rfl)

end Formula

/-- The arguments of a formula are those that its history declares. -/
theorem Chronicle.arguments_eq (objects : Nat → Number) (requests : List Request) :
    (chronicle objects requests).Holds fun formula history =>
      formula.scope.symbols.arguments = Table.enterAll (history.filterMap declaration?) := by
  refine holds_of_edit (fun _ => rfl) ?_ requests
  intro formula history edit before
  rw [formula.arguments_edit, before, List.filterMap_append]
  cases said : declaration? (edit, (formula.edit objects edit).2) with
  | none => simp [said]
  | some entry =>
      rw [List.filterMap_cons_some said, List.filterMap_nil, Table.enterAll_append]
      rfl

/-! ## The last argument that covers a slot -/

/-- Whether a slot is one of those of an argument. -/
def Argument.Covers (argument : Argument) (slot : Nat) : Prop :=
  argument.slot.val ≤ slot ∧ slot < argument.slot.val + argument.width.val

instance (argument : Argument) (slot : Nat) : Decidable (argument.Covers slot) :=
  inferInstanceAs (Decidable (_ ∧ _))

/-- The slots of an argument are numbered from its first one. -/
theorem Argument.getElem?_slots (argument : Argument) {component : Nat}
    (inside : component < argument.width.val) :
    ∃ slot, argument.slots[component]? = some slot ∧
      slot.val = argument.slot.val + component := by
  simp [slots, List.getElem?_range inside]

namespace SymbolTables

/-- A name is bare exactly when the argument is a scalar. -/
theorem componentName_eq_iff (name : String) (argument : Argument) (component : Nat) :
    componentName name argument component = name ↔ argument.width.val = 1 := by
  unfold componentName
  split
  case isTrue scalar => exact iff_of_true rfl scalar
  case isFalse vector =>
      refine iff_of_false (fun same => ?_) vector
      have lengths : (name ++ "[" ++ toString component ++ "]").length = name.length :=
        congrArg String.length same
      have bracket : "[".length = 1 := rfl
      rw [String.length_append, String.length_append, String.length_append] at lengths
      omega

/-- The display names after those of one more argument are written, each in the place of the name
that its slot had. -/
def writeNames (names : Nat → Option String) (name : String) (argument : Argument) :
    Nat → Option String :=
  (List.range argument.width.val).foldl
    (fun names component => Function.update names (argument.slot.val + component)
      (some (componentName name argument component))) names

/-- The display names of slots as they are written, argument by argument. -/
def writtenNames (tables : SymbolTables) : Nat → Option String :=
  tables.arguments.foldl (fun names entry => writeNames names entry.1 entry.2) fun _ => none

/-- One more argument names the slots that it covers, and no others. -/
theorem writeNames_apply (names : Nat → Option String) (name : String) (argument : Argument)
    (slot : Nat) :
    writeNames names name argument slot =
      if argument.Covers slot then
        some (componentName name argument (slot - argument.slot.val))
      else names slot := by
  -- the slots that the first components name are those in front of the next one
  suffices written : ∀ count, ((List.range count).foldl
      (fun names component => Function.update names (argument.slot.val + component)
        (some (componentName name argument component))) names) slot =
      if argument.slot.val ≤ slot ∧ slot < argument.slot.val + count then
        some (componentName name argument (slot - argument.slot.val))
      else names slot from written argument.width.val
  intro count
  induction count with
  | zero => rw [if_neg (by omega)]; rfl
  | succ count inductionHypothesis =>
      rw [List.range_succ, List.foldl_append, List.foldl_cons, List.foldl_nil,
        Function.update_apply]
      split
      case isTrue here =>
          rw [if_pos (by omega), here, Nat.add_sub_cancel_left]
      case isFalse elsewhere =>
          rw [inductionHypothesis]
          exact if_congr (by omega) rfl rfl

/-- A written slot has the name of a component of the last argument that covers it. -/
theorem writtenNames_apply (tables : SymbolTables) (slot : Nat) :
    tables.writtenNames slot =
      (tables.arguments.reverse.find? fun entry => decide (entry.2.Covers slot)).map fun entry =>
        componentName entry.1 entry.2 (slot - entry.2.slot.val) := by
  rw [writtenNames]
  induction tables.arguments using List.reverseRecOn with
  | nil => rfl
  | append_singleton entries entry inductionHypothesis =>
      rw [List.foldl_append, List.foldl_cons, List.foldl_nil, writeNames_apply,
        inductionHypothesis, List.reverse_append, List.reverse_singleton, List.singleton_append,
        List.find?_cons]
      by_cases covers : entry.2.Covers slot <;> simp [covers]

/-- The latest of some entries is what they leave in the place of a slot. -/
theorem find?_reverse_eq (entries : List (Nat × String)) (slot : Nat) :
    (entries.reverse.find? fun entry => entry.1 == slot).map Prod.snd =
      entries.foldl (fun (names : Nat → Option String) entry =>
        Function.update names entry.1 (some entry.2)) (fun _ => none) slot := by
  induction entries using List.reverseRecOn with
  | nil => rfl
  | append_singleton entries entry inductionHypothesis =>
      rw [List.reverse_append, List.reverse_singleton, List.singleton_append, List.find?_cons,
        List.foldl_append, List.foldl_cons, List.foldl_nil, Function.update_apply,
        ← inductionHypothesis]
      by_cases here : entry.1 = slot
      · simp [here]
      · simp [beq_false_of_ne here, Ne.symm here]

/-- The display name of a slot is the one that was written last. -/
theorem slotName?_eq_writtenNames (tables : SymbolTables) (slot : Nat) :
    tables.slotName? slot = tables.writtenNames slot := by
  rw [slotName?, find?_reverse_eq, slotEntries, List.foldl_flatMap]
  simp only [componentNames, List.foldl_map]
  rfl

/-- A slot has a display name exactly when an argument covers it. -/
theorem exists_slotName?_iff (tables : SymbolTables) (slot : Nat) :
    (∃ shown, tables.slotName? slot = some shown) ↔
      ∃ entry ∈ tables.arguments, entry.2.Covers slot := by
  rw [← Option.isSome_iff_exists, slotName?_eq_writtenNames, writtenNames_apply,
    Option.isSome_map, List.find?_isSome]
  simp

/-- What a display name is displayed for: a component of an argument that covers the slot, while
none of the arguments behind it in the table does. -/
structure Displays (tables : SymbolTables) (slot : Nat) (shown name : String) (declared : Argument)
    (component : Nat) : Prop where
  found : tables.arguments.find? name = some declared
  last : ∃ before after, tables.arguments = before ++ (name, declared) :: after ∧
    ∀ entry ∈ after, ¬entry.2.Covers slot
  inside : component < declared.width.val
  slot_eq : declared.slot.val + component = slot
  bare_iff : shown = name ↔ declared.width.val = 1
  indexed : declared.width.val ≠ 1 → shown = s!"{name}[{component}]"

variable {tables : SymbolTables} {slot : Nat} {shown : String}

theorem Displays.shown_eq {name : String} {declared : Argument} {component : Nat}
    (displays : tables.Displays slot shown name declared component) :
    shown = componentName name declared component := by
  unfold componentName
  split
  case isTrue scalar => exact displays.bare_iff.mpr scalar
  case isFalse vector => exact displays.indexed vector

/-- In a table without doubled names, a slot has a display name exactly when the name is displayed
for it. -/
theorem slotName?_eq_some_iff (distinct : (tables.arguments.map Prod.fst).Nodup) :
    tables.slotName? slot = some shown ↔
      ∃ name declared component, tables.Displays slot shown name declared component := by
  rw [slotName?_eq_writtenNames, writtenNames_apply]
  constructor
  · intro displayed
    obtain ⟨⟨name, declared⟩, search, rfl⟩ := Option.map_eq_some_iff.mp displayed
    obtain ⟨covers, behind, before, split, apart⟩ := List.find?_eq_some_iff_append.mp search
    obtain ⟨first, last⟩ : declared.Covers slot := of_decide_eq_true covers
    have order : tables.arguments = before.reverse ++ (name, declared) :: behind.reverse := by
      simpa using congrArg List.reverse split
    have member : (name, declared) ∈ tables.arguments := by
      rw [order]
      exact List.mem_append_right _ (.head _)
    refine ⟨name, declared, slot - declared.slot.val, Table.find?_of_mem distinct member,
      ⟨_, _, order, fun entry inside => ?_⟩, by omega, by omega,
      componentName_eq_iff _ _ _, fun vector => if_neg vector⟩
    simpa using apart entry (List.mem_reverse.mp inside)
  · rintro ⟨name, declared, component, displays⟩
    obtain ⟨before, after, order, apart⟩ := displays.last
    have inside := displays.inside
    have slotEq := displays.slot_eq
    have covers : declared.Covers slot := ⟨by omega, by omega⟩
    refine Option.map_eq_some_iff.mpr ⟨(name, declared), ?_, ?_⟩
    · refine List.find?_eq_some_iff_append.mpr
        ⟨decide_eq_true covers, after.reverse, before.reverse, by simp [order], ?_⟩
      intro entry member
      simpa using apart entry (List.mem_reverse.mp member)
    · rw [displays.shown_eq, ← slotEq, Nat.add_sub_cancel_left]

end SymbolTables

/-! ## Arguments as formulas -/

/-- The name of an argument, read as a formula, pushes the slots of the argument in order. -/
theorem Formula.parse_argument {formula : Formula} {name : String} {declared : Argument}
    (word : Lexer.IsWord name) (free : name ∉ ["and", "or", "not", "I"])
    (found : formula.scope.symbols.arguments.find? name = some declared) :
    ∃ parsed, formula.parse (.text name) = (parsed, none) ∧
      parsed.program.steps = declared.slots.map .argument := by
  have spells := Lexer.spells_word word (Scope.resolve_of_find? free found)
  obtain ⟨compiled, compiles, steps, -⟩ :=
    ((ReadsBefore.atom (.argument declared) spells).lift .expression).compiles
  refine ⟨{ formula with
    program := compiled.program
    resultType := compiled.resultType
    broken := false }, ?_, steps⟩
  rw [Formula.parse, compiles]

/-- How a formula whose arguments were declared in some order displays the slots that they cover. -/
structure Formula.NamesSlots (formula : Formula) (declarations : List (String × Argument)) :
    Prop where
  /-- The table is in the order of the first declarations. -/
  order : formula.scope.symbols.arguments.map Prod.fst = (declarations.map Prod.fst).eraseDups
  /-- The latest declaration of a name counts. -/
  latest : ∀ name, formula.scope.symbols.arguments.find? name =
    (declarations.reverse.find? fun entry => entry.1 == name).map Prod.snd
  written : ∀ slot, formula.scope.symbols.slotName? slot =
    formula.scope.symbols.writtenNames slot
  named_iff : ∀ slot, (∃ shown, formula.scope.symbols.slotName? slot = some shown) ↔
    ∃ entry ∈ formula.scope.symbols.arguments, entry.2.Covers slot
  displays_iff : ∀ slot shown, formula.scope.symbols.slotName? slot = some shown ↔
    ∃ name declared component,
      formula.scope.symbols.Displays slot shown name declared component
  /-- An argument that is read as a formula pushes the slot as the component that is displayed. -/
  pushes : ∀ slot shown name declared component,
    formula.scope.symbols.Displays slot shown name declared component →
    Lexer.IsWord name → name ∉ ["and", "or", "not", "I"] →
    ∃ parsed pushed, formula.parse (.text name) = (parsed, none) ∧
      parsed.program.steps.length = declared.width.val ∧
      parsed.program.steps[component]? = some (.argument pushed) ∧ pushed.val = slot

/-- In every session, whatever is declared and declared again, a formula displays each slot that an
argument covers by the last argument in the table that covers it, and by nothing else. The display
name tells the component as which the argument, read as a formula, pushes the slot. -/
theorem slots_named_in_session (objects : Nat → Number) (requests : List Request) :
    (chronicle objects requests).Holds fun formula history =>
      formula.NamesSlots (history.filterMap declaration?) := by
  refine (Chronicle.arguments_eq objects requests).imp fun formula history arguments => ?_
  have distinct : (formula.scope.symbols.arguments.map Prod.fst).Nodup :=
    arguments ▸ Table.nodup_enterAll _
  refine ⟨arguments ▸ Table.map_fst_enterAll _, fun name => arguments ▸ Table.find?_enterAll _ name,
    formula.scope.symbols.slotName?_eq_writtenNames, formula.scope.symbols.exists_slotName?_iff,
    fun slot shown => SymbolTables.slotName?_eq_some_iff distinct, ?_⟩
  intro slot shown name declared component displays word free
  obtain ⟨parsed, reads, steps⟩ := Formula.parse_argument word free displays.found
  obtain ⟨pushed, atComponent, value⟩ := declared.getElem?_slots displays.inside
  refine ⟨parsed, pushed, reads, ?_, ?_, value.trans displays.slot_eq⟩
  · rw [steps, List.length_map, declared.length_slots]
  · rw [steps, List.getElem?_map, atComponent]
    rfl

/-- An argument that is declared again with one more component keeps its place in the table, so it
does not win back the slot that it lost to the argument behind it. -/
example :
    (chronicle (fun _ => .int 0) [.create [], .edit 0 (.defineArgument "v" 1 3 false),
      .edit 0 (.defineArgument "w" 2 1 false),
      .edit 0 (.defineArgument "v" 1 4 false)]).formulas.map
        (fun formula => (List.range 6).map formula.scope.symbols.slotName?) =
      [[none, some "v[0]", some "w", some "v[2]", some "v[3]", none]] := by
  decide +kernel

end Formulary
