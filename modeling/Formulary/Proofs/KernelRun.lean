import Formulary.Proofs.Agreement
import Formulary.Proofs.StackRun

/-!
# Kernels beside evaluations

A kernel runs beside an evaluation in place, step by step, in an arithmetic that agrees with the
evaluation's on every operation that occurs. Its stack is the list that the work area carries, which
may be taller than the shape foretells.

Before it starts, a kernel reads the whole point and every cell. What it reads is what the
evaluation meets, since a run that succeeds has taken every step of the program.
-/

namespace Formulary

open Outcome (mapM_eq_ok_iff exists_mapM_eq_ok bind_eq_ok_iff)

variable {α : Type}

namespace Evaluation

/-- The operations of an evaluation in place, as far as it comes. -/
def operations (arithmetic : Arithmetic α) (setting : Setting) (index : Nat) :
    List Step → Machine α → List (Operation α)
  | [], _ => []
  | step :: rest, machine =>
    step.operations arithmetic setting (Kernel.splitTop machine.values step.operands).2 ++
      match (exec arithmetic setting index step machine).result with
      | .ok next => operations arithmetic setting (index + 1) rest next
      | .error _ => []

variable {arithmetic : Arithmetic α} {setting : Setting}

/-- The operations of a run go on with those of what its first step leaves. -/
theorem operations_cons {index : Nat} {step : Step} {rest : List Step} {machine next : Machine α}
    (ran : (exec arithmetic setting index step machine).result = .ok next) :
    operations arithmetic setting index (step :: rest) machine =
      step.operations arithmetic setting (Kernel.splitTop machine.values step.operands).2 ++
        operations arithmetic setting (index + 1) rest next := by
  rw [operations, ran]

/-- A run that succeeds has taken each of its steps. -/
theorem exists_exec_of_mem {steps : List Step} {index : Nat} {machine after : Machine α}
    (ran : (execAll arithmetic setting index steps machine).result = .ok after) {step : Step}
    (member : step ∈ steps) :
    ∃ place before next, (exec arithmetic setting place step before).result = .ok next ∧
      step.operations arithmetic setting (Kernel.splitTop before.values step.operands).2 ⊆
        operations arithmetic setting index steps machine := by
  induction steps generalizing index machine with
  | nil => cases member
  | cons first rest inductionHypothesis =>
      obtain ⟨middle, ranFirst, ranRest⟩ := Logged.result_bind_eq_ok_iff.mp ran
      rw [operations_cons ranFirst]
      rcases List.mem_cons.mp member with rfl | later
      · exact ⟨index, machine, middle, ranFirst, List.subset_append_left _ _⟩
      · obtain ⟨place, before, next, taken, contained⟩ := inductionHypothesis ranRest later
        exact ⟨place, before, next, taken,
          List.Subset.trans contained (List.subset_append_right _ _)⟩

/-- A run that succeeds has found a scalar in each slot that it reads. -/
theorem exists_input_of_mem {steps : List Step} {index : Nat} {machine after : Machine α}
    (ran : (execAll arithmetic setting index steps machine).result = .ok after) {slot : Positive}
    (member : .argument slot ∈ steps) :
    ∃ value, input arithmetic setting slot.val = .ok value := by
  obtain ⟨place, before, next, taken, _⟩ := exists_exec_of_mem ran member
  obtain ⟨value, found, _⟩ := Logged.result_bind_eq_ok_iff.mp taken
  exact ⟨value, found⟩

/-- A run that succeeds has loaded each cell that it reads. -/
theorem exists_load_of_mem {steps : List Step} {index : Nat} {machine after : Machine α}
    (ran : (execAll arithmetic setting index steps machine).result = .ok after) {cell : Cell}
    (member : .external cell ∈ steps) :
    (∃ found, arithmetic.stored (setting.store cell) = .ok found) ∧
      .load (setting.store cell) ∈ operations arithmetic setting index steps machine := by
  obtain ⟨place, before, next, taken, contained⟩ := exists_exec_of_mem ran member
  obtain ⟨value, loaded, _⟩ := Logged.result_bind_eq_ok_iff.mp taken
  obtain ⟨found, stored, _⟩ := Logged.result_bind_eq_ok_iff.mp loaded
  exact ⟨⟨found, stored⟩, contained List.mem_cons_self⟩

end Evaluation

/-! ## What a kernel reads -/

/-- The cells of a program are those that its steps read. -/
theorem Program.mem_foldl_noteCell_iff {steps : List Step} {cells : List Cell} {cell : Cell} :
    cell ∈ steps.foldl noteCell cells ↔ cell ∈ cells ∨ .external cell ∈ steps := by
  induction steps generalizing cells with
  | nil => simp
  | cons step rest inductionHypothesis =>
      rw [List.foldl_cons, inductionHypothesis]
      cases step with
      | external found =>
          simp only [noteCell, List.mem_cons, Step.external.injEq]
          split
          case isTrue known => grind
          case isFalse fresh => simp [or_assoc]
      | _ => simp [noteCell]

namespace Kernel

variable {arithmetic : Arithmetic α} {store : Store}

/-- The cells that were read have the values that were stored for them. -/
theorem stored_eq_cellValue {names : List Cell} {cells : CellValues α}
    (read : (names.mapM fun cell => do
      let (value, degraded) ← arithmetic.stored (store cell)
      return (cell, value, degraded)) = .ok cells) {cell : Cell} (member : cell ∈ names) :
    arithmetic.stored (store cell) = .ok (cellValue arithmetic cells cell) := by
  have entries := mapM_eq_ok_iff.mp read
  clear read
  induction entries with
  | nil => cases member
  | @cons name entry rest further computed entries inductionHypothesis =>
      obtain ⟨found, stored, finished⟩ := bind_eq_ok_iff.mp computed
      cases finished
      by_cases first : name = cell
      · subst first
        simp [cellValue, stored]
      · have later := inductionHypothesis (List.mem_of_ne_of_mem (Ne.symm first) member)
        simpa [cellValue, first] using later

/-- The entry of a point for a slot is the scalar of the input in that slot. -/
theorem entry_eq_input {setting : Setting} {point : List α}
    (read : readPoint arithmetic setting.inputs = .ok point) {slot : Nat} {value : α}
    (found : Evaluation.input arithmetic setting slot = .ok value) :
    entry point slot = .ok value := by
  obtain ⟨length, entries⟩ := List.forall₂_iff_get.mp (mapM_eq_ok_iff.mp read)
  unfold Evaluation.input at found
  split at found
  case h_1 number given =>
      obtain ⟨inside, rfl⟩ := List.getElem?_eq_some_iff.mp given
      have within : slot - 1 < point.length := length ▸ inside
      have same := entries (slot - 1) inside within
      rw [List.get_eq_getElem, List.get_eq_getElem, found] at same
      rw [entry, List.getElem?_eq_getElem within]
      exact same.symm
  case h_2 => cases found

/-! ## Runs side by side -/

section Runs

variable {array scalar : Arithmetic α} {bound : Number} {defined : α → Prop} {setting : Setting}
  (parallel : array.Parallel scalar defined)

include parallel

/-- A step of a kernel does what it does on a list in an evaluation. -/
theorem exec_eq_relog (tolerance : setting.tolerance = some bound) (index : Nat) {step : Step}
    {stack point : List α} {cells : CellValues α} (enough : step.operands ≤ stack.length)
    (agreement : Agreement array scalar bound defined
      (step.operations scalar setting (splitTop stack step.operands).2))
    (reads : step.ReadsAlike scalar setting point cells) :
    exec array bound point cells step stack =
      (Evaluation.execList scalar setting index step stack).relog Degradation.substitute := by
  obtain ⟨below, operands, rfl, exact⟩ := exists_append_of_le enough
  rw [splitTop_append exact] at agreement
  rw [exec_append parallel index tolerance exact agreement reads, Evaluation.execList_append exact]
  simp

/-- A kernel that runs beside an evaluation in place does what the steps do on a list. -/
theorem execAll_eq_relog (tolerance : setting.tolerance = some bound) {steps : List Step}
    {index first : Nat} {shape final : Shape} {machine after : Machine α} {stack point : List α}
    {cells : CellValues α}
    (extended : Shape.extendAll first shape steps = .ok final) (carries : machine.Carries stack)
    (tall : shape.height ≤ stack.length)
    (ran : (Evaluation.execAll scalar setting index steps machine).result = .ok after)
    (agreement : Agreement array scalar bound defined
      (Evaluation.operations scalar setting index steps machine))
    (reads : ∀ step ∈ steps, step.ReadsAlike scalar setting point cells) :
    execAll array bound point cells steps stack =
      (Evaluation.execAllList scalar setting index steps stack).relog Degradation.substitute := by
  -- The work area is carried along because the operations are listed on the way of the evaluation.
  induction steps generalizing index first shape machine stack with
  | nil => rfl
  | cons step rest inductionHypothesis =>
      obtain ⟨reached, extendedFirst, extendedRest⟩ := Shape.extendAll_cons_iff.mp extended
      have follows := Shape.extend_follows extendedFirst
      have enough := Nat.le_trans follows.enough tall
      obtain ⟨middle, ranFirst, ranRest⟩ := Logged.result_bind_eq_ok_iff.mp ran
      obtain ⟨next, listed, _, _, carried⟩ :=
        Evaluation.exec_succeeds_on_list scalar setting index step carries enough ranFirst
      rw [Evaluation.operations_cons ranFirst, carries.values_eq] at agreement
      have head := exec_eq_relog parallel tolerance index enough
        (agreement.subset (List.subset_append_left _ _)) (reads step List.mem_cons_self)
      have tall := Evaluation.height_le_of_execList follows tall listed
      have tail := inductionHypothesis extendedRest carried tall ranRest
        (agreement.subset (List.subset_append_right _ _))
        (fun other member => reads other (List.mem_cons_of_mem _ member))
      simp only [execAll, Evaluation.execAllList, Logged.bind_eq, Logged.relog_bind, head]
      exact Logged.bind_congr_of_ok listed tail

/-- Before it starts, a kernel reads a point and cells that have what every step of the evaluation
finds. -/
theorem exists_reads {program : Program} {machine after : Machine α}
    (converts : ∀ number ∈ setting.inputs, ∃ value, scalar.input number = .ok value)
    (ran : (Evaluation.execAll scalar setting 0 program.steps machine).result = .ok after)
    (agreement : Agreement array scalar bound defined
      (Evaluation.operations scalar setting 0 program.steps machine)) :
    ∃ point cells, readPoint array setting.inputs = .ok point ∧
      readCells array setting.store program = .ok cells ∧
      ∀ step ∈ program.steps, step.ReadsAlike scalar setting point cells := by
  rw [← parallel.input_eq] at converts
  obtain ⟨point, readsPoint⟩ := exists_mapM_eq_ok converts
  have loads : ∀ cell ∈ program.cells,
      array.stored (setting.store cell) = scalar.stored (setting.store cell) ∧
        ∃ found, scalar.stored (setting.store cell) = .ok found := by
    intro cell member
    have used : .external cell ∈ program.steps := by
      simpa [Program.cells, Program.mem_foldl_noteCell_iff] using member
    obtain ⟨stored, asked⟩ := Evaluation.exists_load_of_mem ran used
    exact ⟨agreement.agrees _ asked, stored⟩
  have computes : ∀ cell ∈ program.cells, ∃ entry : Cell × α × Bool, (do
      let (value, degraded) ← array.stored (setting.store cell)
      return (cell, value, degraded)) = Except.ok entry := by
    intro cell member
    obtain ⟨same, found, stored⟩ := loads cell member
    exact ⟨(cell, found), by rw [same, stored]; rfl⟩
  obtain ⟨cells, readsCells⟩ := exists_mapM_eq_ok computes
  refine ⟨point, cells, readsPoint, readsCells, ?_⟩
  intro step member
  cases step with
  | argument slot =>
      obtain ⟨value, found⟩ := Evaluation.exists_input_of_mem ran member
      have alike : Evaluation.input array setting slot.val = .ok value := by
        rw [← found, Evaluation.input, Evaluation.input, parallel.input_eq]
      exact (entry_eq_input readsPoint alike).trans found.symm
  | external cell =>
      have known : cell ∈ program.cells := by
        simpa [Program.cells, Program.mem_foldl_noteCell_iff] using member
      have stored := stored_eq_cellValue readsCells known
      rw [(loads cell known).1, cellValue, parallel.zero_eq] at stored
      exact stored
  | _ => trivial

end Runs

end Kernel

end Formulary
