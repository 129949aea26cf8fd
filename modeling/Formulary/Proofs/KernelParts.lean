import Formulary.Proofs.KernelRun

/-!
# Kernels of parts

A kernel runs a part of a program as it runs the part alone. A step takes no notice of what lies
below its operands, so steps that find their operands on a stack of their own leave the same values
on top of any other stack. The cells are read before the run, for the part alone or for the whole
program; each has the same value in both.
-/

namespace Formulary.Kernel

open Outcome (exists_mapM_eq_ok mapM_eq_ok_iff bind_eq_ok_iff)

variable {α : Type} {arithmetic : Arithmetic α} {tolerance : Number} {point : List α}
  {cells : CellValues α}

/-! ## Steps on top of a stack -/

/-- A stack of operands is split into nothing and the operands. -/
theorem splitTop_of_length {group : List α} {count : Nat} (exact : group.length = count) :
    splitTop group count = ([], group) :=
  @splitTop_append _ [] group count exact

/-- A step on operands that lie on a stack leaves what it leaves of the operands alone. -/
theorem exec_append_operands (below : List α) {step : Step} {operands : List α}
    (exact : operands.length = step.operands) :
    exec arithmetic tolerance point cells step (below ++ operands) =
      (exec arithmetic tolerance point cells step operands).bind fun results =>
        Logged.value (below ++ results) := by
  cases step with
  | constant | argument | external =>
      obtain rfl := List.length_eq_zero_iff.mp exact
      simp [exec, Logged.bind_assoc]
  | call function =>
      have arguments : operands.length = function.arity := exact
      simp [exec, splitTop_append arguments, splitTop_of_length arguments]
  | negate width =>
      have group : operands.length = width.toNat := exact
      simp [exec, splitTop_append group, splitTop_of_length group]
  | vector operator left right =>
      obtain ⟨first, second, rfl, rightExact⟩ :=
        exists_append_of_le (show right.val ≤ operands.length by
          simp only [Step.operands] at exact
          omega)
      have leftExact : first.length = left.val := by
        simp only [Step.operands, List.length_append] at exact
        omega
      simp [exec, ← List.append_assoc, splitTop_append rightExact, splitTop_append leftExact,
        splitTop_of_length leftExact]
  | operator operator =>
      cases operator with
      | not =>
          obtain ⟨value, rfl⟩ := List.length_eq_one_iff.mp exact
          have split : splitTop (below ++ [value]) 1 = (below, [value]) := splitTop_append rfl
          simp [exec, split, splitTop_of_length (show [value].length = 1 from rfl),
            Logged.bind_assoc]
      | _ =>
          obtain ⟨left, right, rfl⟩ := List.length_eq_two.mp exact
          have split : splitTop (below ++ [left, right]) 2 = (below, [left, right]) :=
            splitTop_append rfl
          simp [exec, split, splitTop_of_length (show [left, right].length = 2 from rfl),
            Logged.bind_assoc]

/-- A step that finds its operands on a stack does the same on top of another one. -/
theorem exec_append_stack (below : List α) {step : Step} {stack : List α}
    (enough : step.operands ≤ stack.length) :
    exec arithmetic tolerance point cells step (below ++ stack) =
      (exec arithmetic tolerance point cells step stack).bind fun next =>
        Logged.value (below ++ next) := by
  obtain ⟨rest, operands, rfl, exact⟩ := exists_append_of_le enough
  rw [← List.append_assoc, exec_append_operands _ exact, exec_append_operands rest exact,
    Logged.bind_assoc]
  simp only [Logged.value_bind, List.append_assoc]

/-- The results of a step are as many as it leaves. -/
theorem length_results {step : Step} {operands results : List α}
    (exact : operands.length = step.operands)
    (ran : (exec arithmetic tolerance point cells step operands).result = .ok results) :
    results.length = step.results := by
  cases step with
  | constant constant =>
      obtain rfl := List.length_eq_zero_iff.mp exact
      obtain ⟨loaded, _, ran⟩ := Logged.result_bind_eq_ok_iff.mp ran
      obtain ⟨_, _, finished⟩ := Logged.result_bind_eq_ok_iff.mp ran
      cases finished
      rfl
  | argument slot | external cell =>
      obtain rfl := List.length_eq_zero_iff.mp exact
      obtain ⟨_, _, finished⟩ := Logged.result_bind_eq_ok_iff.mp ran
      cases finished
      rfl
  | call function =>
      have arguments : operands.length = function.arity := exact
      simp only [exec, splitTop_of_length arguments] at ran
      cases ran
      rfl
  | negate width =>
      have group : operands.length = width.toNat := exact
      simp only [exec, splitTop_of_length group] at ran
      cases ran
      simpa [Step.results] using group
  | vector operator left right =>
      obtain ⟨first, second, rfl, rightExact⟩ :=
        exists_append_of_le (show right.val ≤ operands.length by
          simp only [Step.operands] at exact
          omega)
      have leftExact : first.length = left.val := by
        simp only [Step.operands, List.length_append] at exact
        omega
      simp only [exec, splitTop_append rightExact, splitTop_of_length leftExact] at ran
      cases ran
      exact length_vector arithmetic operator leftExact rightExact
  | operator operator =>
      cases operator with
      | not =>
          obtain ⟨value, rfl⟩ := List.length_eq_one_iff.mp exact
          obtain ⟨_, _, ran⟩ := Logged.result_bind_eq_ok_iff.mp ran
          obtain ⟨_, _, finished⟩ := Logged.result_bind_eq_ok_iff.mp ran
          cases finished
          rfl
      | _ =>
          obtain ⟨left, right, rfl⟩ := List.length_eq_two.mp exact
          obtain ⟨_, _, finished⟩ := Logged.result_bind_eq_ok_iff.mp ran
          cases finished
          rfl

/-- A step takes its operands and leaves its results. -/
theorem length_exec {step : Step} {stack next : List α} (enough : step.operands ≤ stack.length)
    (ran : (exec arithmetic tolerance point cells step stack).result = .ok next) :
    next.length + step.operands = stack.length + step.results := by
  obtain ⟨below, operands, rfl, exact⟩ := exists_append_of_le enough
  rw [exec_append_operands _ exact] at ran
  obtain ⟨results, answered, finished⟩ := Logged.result_bind_eq_ok_iff.mp ran
  cases finished
  have width := length_results exact answered
  simp only [List.length_append]
  omega

/-! ## Runs on top of a stack -/

/-- Steps run one part after the other. -/
theorem execAll_append (first second : List Step) (stack : List α) :
    execAll arithmetic tolerance point cells (first ++ second) stack =
      (execAll arithmetic tolerance point cells first stack).bind
        (execAll arithmetic tolerance point cells second) := by
  induction first generalizing stack with
  | nil => simp [execAll]
  | cons step rest inductionHypothesis =>
      simp only [List.cons_append, execAll, Logged.bind_eq, Logged.bind_assoc,
        inductionHypothesis]

/-- A stack that is as tall as foretold is so after a balanced step too. -/
theorem length_eq_of_exec {step : Step} {shape reached : Shape} {stack next : List α}
    (balanced : step.Balanced) (follows : shape.Follows reached step)
    (tall : stack.length = shape.height)
    (ran : (exec arithmetic tolerance point cells step stack).result = .ok next) :
    next.length = reached.height := by
  have enough := follows.enough
  rw [← tall] at enough
  have height := (step.heightAfter_eq_iff enough).mpr balanced
  rw [tall, ← follows.height_eq, ← tall] at height
  have length := length_exec enough ran
  omega

/-- Balanced steps that run from a shape on leave a stack as tall as foretold, and on top of any
other stack they leave the same. -/
theorem execAll_append_stack (below : List α) {steps : List Step} {first : Nat}
    {shape final : Shape} {stack : List α} (balanced : ∀ step ∈ steps, step.Balanced)
    (extended : Shape.extendAll first shape steps = .ok final)
    (tall : stack.length = shape.height) :
    execAll arithmetic tolerance point cells steps (below ++ stack) =
        ((execAll arithmetic tolerance point cells steps stack).bind fun after =>
          Logged.value (below ++ after)) ∧
      ∀ after, (execAll arithmetic tolerance point cells steps stack).result = .ok after →
        after.length = final.height := by
  induction steps generalizing first shape stack with
  | nil =>
      cases extended
      refine ⟨by simp [execAll], ?_⟩
      intro after ran
      cases ran
      exact tall
  | cons step rest inductionHypothesis =>
      obtain ⟨reached, extendedFirst, extendedRest⟩ := Shape.extendAll_cons_iff.mp extended
      have follows := Shape.extend_follows extendedFirst
      have enough : step.operands ≤ stack.length := tall ▸ follows.enough
      have later := fun {next} (ran : (exec arithmetic tolerance point cells step stack).result =
          .ok next) =>
        inductionHypothesis (fun other member => balanced other (List.mem_cons_of_mem _ member))
          extendedRest (length_eq_of_exec (balanced step List.mem_cons_self) follows tall ran)
      constructor
      · simp only [execAll, Logged.bind_eq, exec_append_stack below enough, Logged.bind_assoc,
          Logged.value_bind]
        cases ran : (exec arithmetic tolerance point cells step stack).result with
        | error cause => simp only [Logged.bind, ran]
        | ok next => exact Logged.bind_congr_of_ok ran (later ran).1
      · intro after ran
        obtain ⟨next, ranFirst, ranRest⟩ := Logged.result_bind_eq_ok_iff.mp ran
        exact (later ranFirst).2 after ranRest

/-! ## Cells of a part -/

/-- A run depends on the cells that its steps read, and on no others. -/
theorem execAll_eq_of_cells {steps : List Step} {others : CellValues α}
    (same : ∀ cell, .external cell ∈ steps →
      cellValue arithmetic cells cell = cellValue arithmetic others cell) (stack : List α) :
    execAll arithmetic tolerance point cells steps stack =
      execAll arithmetic tolerance point others steps stack := by
  induction steps generalizing stack with
  | nil => rfl
  | cons step rest inductionHypothesis =>
      have head : exec arithmetic tolerance point cells step stack =
          exec arithmetic tolerance point others step stack := by
        cases step with
        | external cell => simp only [exec, same cell List.mem_cons_self]
        | operator operator => cases operator <;> rfl
        | _ => rfl
      simp only [execAll, Logged.bind_eq, head,
        inductionHypothesis fun cell member => same cell (List.mem_cons_of_mem _ member)]

variable {store : Store}

/-- A cell that a program reads is read before the program is run. -/
theorem stored_of_readCells {program : Program}
    (read : readCells arithmetic store program = .ok cells) {cell : Cell}
    (used : .external cell ∈ program.steps) :
    arithmetic.stored (store cell) = .ok (cellValue arithmetic cells cell) :=
  stored_eq_cellValue read (by simpa [Program.cells, Program.mem_foldl_noteCell_iff] using used)

/-- The cells of a program are read if each has a scalar. -/
theorem exists_readCells {program : Program}
    (converts : ∀ cell, .external cell ∈ program.steps →
      ∃ found, arithmetic.stored (store cell) = .ok found) :
    ∃ cells, readCells arithmetic store program = .ok cells := by
  refine exists_mapM_eq_ok fun cell member => ?_
  have used : .external cell ∈ program.steps := by
    simpa [Program.cells, Program.mem_foldl_noteCell_iff] using member
  obtain ⟨found, stored⟩ := converts cell used
  exact ⟨(cell, found), by rw [stored]; rfl⟩

/-! ## Scalars of parts -/

/-- A kernel reads a point and its cells, and its run leaves nothing but one scalar. -/
def Leaves (kernel : Kernel) (store : Store) (inputs : List Number)
    (value : kernel.domain.Scalar) : Prop :=
  ∃ point cells, readPoint kernel.domain.flushedArithmetic inputs = .ok point ∧
    readCells kernel.domain.flushedArithmetic store kernel.program = .ok cells ∧
    (execAll kernel.domain.flushedArithmetic kernel.tolerance point cells
      kernel.program.steps []).result = .ok [value]

variable {inputs : List Number}

/-- A kernel of a program of height one that has an output leaves a scalar, which is the output. -/
theorem exists_leaves {kernel : Kernel} {output : Output Number}
    (balanced : ∀ step ∈ kernel.program.steps, step.Balanced)
    (single : kernel.program.shape.height = 1)
    (evaluated : (kernel.evaluate store inputs).result = .ok output) :
    ∃ value, kernel.Leaves store inputs value ∧
      output = .scalar (kernel.domain.flushedArithmetic.output value) := by
  obtain ⟨point, readsPoint, evaluated⟩ := Logged.result_bind_eq_ok_iff.mp evaluated
  obtain ⟨cells, readsCells, evaluated⟩ := Logged.result_bind_eq_ok_iff.mp evaluated
  obtain ⟨found, gives, finished⟩ := Logged.result_bind_eq_ok_iff.mp evaluated
  obtain ⟨stack, ran, handedOut⟩ := Logged.result_bind_eq_ok_iff.mp gives
  have tall := (execAll_append_stack [] balanced kernel.program.shape_eq rfl).2 stack ran
  obtain ⟨value, rfl⟩ := List.length_eq_one_iff.mp (tall.trans single)
  rw [Logged.result_ofExcept, Output.ofStack, if_pos single] at handedOut
  cases handedOut
  cases finished
  exact ⟨value, ⟨point, cells, readsPoint, readsCells, ran⟩, rfl⟩

/-- The scalar that a kernel leaves is its output when a program of height one foretells it. -/
theorem Leaves.evaluate_eq {kernel : Kernel} {value : kernel.domain.Scalar}
    (leaves : kernel.Leaves store inputs value) (single : kernel.program.shape.height = 1) :
    (kernel.evaluate store inputs).result =
      .ok (.scalar (kernel.domain.flushedArithmetic.output value)) := by
  obtain ⟨point, cells, readsPoint, readsCells, ran⟩ := leaves
  refine Logged.result_bind_eq_ok_iff.mpr ⟨point, readsPoint, ?_⟩
  refine Logged.result_bind_eq_ok_iff.mpr ⟨cells, readsCells, ?_⟩
  refine Logged.result_bind_eq_ok_iff.mpr ⟨.scalar value, ?_, rfl⟩
  refine Logged.result_bind_eq_ok_iff.mpr ⟨[value], ran, ?_⟩
  rw [Logged.result_ofExcept, Output.ofStack, if_pos single]
  rfl

/-- A kernel of two parts and an operator leaves what the operator makes of the scalars that the
kernels of the parts leave. -/
theorem leaves_of_parts {domain : Domain} {first second whole : Program} {operator : Operator}
    (isBinary : operator ≠ .not)
    (steps : whole.steps = first.steps ++ second.steps ++ [.operator operator])
    (balanced : ∀ step ∈ second.steps, step.Balanced) {left right value : domain.Scalar}
    (leavesFirst : Leaves ⟨first, domain, tolerance⟩ store inputs left)
    (leavesSecond : Leaves ⟨second, domain, tolerance⟩ store inputs right)
    (computed : (binary domain.flushedArithmetic tolerance operator left right).result =
      .ok value) : Leaves ⟨whole, domain, tolerance⟩ store inputs value := by
  obtain ⟨point, firstCells, readsPoint, readsFirst, ranFirst⟩ := leavesFirst
  obtain ⟨_, secondCells, readsAgain, readsSecond, ranSecond⟩ := leavesSecond
  obtain rfl := Except.ok.inj (readsPoint.symm.trans readsAgain)
  obtain ⟨cells, readsCells⟩ : ∃ cells,
      readCells domain.flushedArithmetic store whole = .ok cells := by
    refine exists_readCells fun cell used => ?_
    rw [steps, List.append_assoc, List.mem_append, List.mem_append] at used
    rcases used with inFirst | inSecond | last
    · exact ⟨_, stored_of_readCells readsFirst inFirst⟩
    · exact ⟨_, stored_of_readCells readsSecond inSecond⟩
    · cases List.mem_singleton.mp last
  have ofFirst : ∀ cell, .external cell ∈ first.steps →
      cellValue domain.flushedArithmetic cells cell =
        cellValue domain.flushedArithmetic firstCells cell := by
    intro cell used
    have inWhole : .external cell ∈ whole.steps := by simp [steps, used]
    exact Except.ok.inj ((stored_of_readCells readsCells inWhole).symm.trans
      (stored_of_readCells readsFirst used))
  have ofSecond : ∀ cell, .external cell ∈ second.steps →
      cellValue domain.flushedArithmetic cells cell =
        cellValue domain.flushedArithmetic secondCells cell := by
    intro cell used
    have inWhole : .external cell ∈ whole.steps := by simp [steps, used]
    exact Except.ok.inj ((stored_of_readCells readsCells inWhole).symm.trans
      (stored_of_readCells readsSecond used))
  have ranOperator : (exec domain.flushedArithmetic tolerance point cells (.operator operator)
      [left, right]).result = .ok [value] := by
    cases operator with
    | not => exact absurd rfl isBinary
    | _ => exact Logged.result_bind_eq_ok_iff.mpr ⟨value, computed, rfl⟩
  refine ⟨point, cells, readsPoint, readsCells, ?_⟩
  simp only [steps, execAll_append]
  refine Logged.result_bind_eq_ok_iff.mpr ⟨[left, right], ?_, ?_⟩
  · refine Logged.result_bind_eq_ok_iff.mpr ⟨[left], ?_, ?_⟩
    · rwa [execAll_eq_of_cells ofFirst]
    · have onTop : execAll domain.flushedArithmetic tolerance point cells second.steps
          ([left] ++ []) = _ := (execAll_append_stack [left] balanced second.shape_eq rfl).1
      rw [List.append_nil] at onTop
      rw [onTop, execAll_eq_of_cells ofSecond]
      exact Logged.result_bind_eq_ok_iff.mpr ⟨[right], ranSecond, rfl⟩
  · exact Logged.result_bind_eq_ok_iff.mpr ⟨[value], ranOperator, rfl⟩

end Formulary.Kernel
