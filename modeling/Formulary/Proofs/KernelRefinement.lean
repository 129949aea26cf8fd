import Formulary.Proofs.KernelRun

/-!
# Kernels refine evaluations

Where the arithmetic of kernels agrees with that of evaluations on every operation of an evaluation
that succeeds, the kernel gives what the evaluation gives and reports the same substitutes. Nothing
is asked of operations that do not occur.

A batch is run row by row on cells that were read once, so its rows are what the kernel gives for
the points one at a time.
-/

namespace Formulary

open Outcome (mapM_eq_ok_iff mapM_bind_eq_ok_iff)

variable {α : Type}

namespace Kernel

/-! ## Outputs -/

/-- The output for a stack with a value on it. -/
theorem ofStack_eq (height : Nat) {stack : List α} (some : stack ≠ []) :
    Output.ofStack height stack =
      .ok (if height = 1 then .scalar (stack.getLast some) else .vector stack) := by
  unfold Output.ofStack
  split
  · rw [List.getLast?_eq_getLast_of_ne_nil some]
  · simp [some]

end Kernel

namespace Evaluation

variable {domain : Domain} {setting : Setting} {program : Program}

/-- An evaluation gives the value on top of the stack that its run leaves. -/
theorem top_eq_ok_iff {top : Number} :
    (evaluate domain setting program none none).top = .ok top ↔
      ∃ machine, (run domain.arithmetic setting program).result = .ok machine ∧
        ∃ some : machine.values ≠ [],
          domain.arithmetic.output (machine.values.getLast some) = top := by
  cases ran : (run domain.arithmetic setting program).result with
  | error cause => simp [evaluate, ran]
  | ok machine =>
      by_cases some : machine.values = []
      · simp [evaluate, ran, Machine.topValue, some, Except.map]
      · simp [evaluate, ran, Machine.topValue, List.getLast?_eq_getLast_of_ne_nil some, Except.map,
          some]

/-- An evaluation copies the whole stack into a buffer that is long enough. -/
theorem evaluate_buffer {machine : Machine domain.Scalar}
    (ran : (run domain.arithmetic setting program).result = .ok machine) {buffer : List Number}
    (long : machine.values.length ≤ buffer.length) :
    evaluate domain setting program (some buffer) none =
      ⟨machine.topValue.map domain.arithmetic.output,
        (run domain.arithmetic setting program).log,
        machine.values.map domain.arithmetic.output ++ buffer.drop machine.values.length⟩ := by
  have short : ¬buffer.length < machine.values.length := by omega
  simp [evaluate, ran, outputCount, copyOut, short, List.take_of_length_le, long]

end Evaluation

/-! ## Domains -/

namespace Domain

/-- A scalar whose real part is a number. -/
def Defined : (domain : Domain) → domain.Scalar → Prop
  | real, value => Float.isNaN value = false
  | complex, value => value.re.isNaN = false

/-- The arithmetic of kernels in a domain differs from that of evaluations in operations only. -/
theorem parallel (domain : Domain) :
    domain.flushedArithmetic.Parallel domain.arithmetic domain.Defined := by
  have unit : ∀ value : Float, value.isNaN = false →
      Arithmetic.realStep value = if !decide (value < 0) then 1 else 0 := by
    intro value defined
    have number : ¬value.isNaN = true := by rw [defined]; exact Bool.false_ne_true
    rw [Arithmetic.realStep, if_neg number]
    by_cases below : value < 0 <;> simp [below]
  cases domain with
  | real => exact ⟨rfl, rfl, rfl, rfl, rfl, rfl, unit⟩
  | complex =>
      refine ⟨rfl, rfl, rfl, rfl, rfl, rfl, ?_⟩
      intro value defined
      exact congrArg Cartesian.ofReal (unit value.re defined)

end Domain

/-! ## Kernels and evaluations -/

namespace Kernel

/-- What the program of a kernel is evaluated with: a point, what the cells hold now, and the
tolerance of the kernel. -/
def setting (kernel : Kernel) (store : Store) (inputs : List Number) : Setting :=
  ⟨inputs, store, some kernel.tolerance⟩

/-- An evaluation of the program of a kernel, which copies all values into a buffer if one is
given. -/
def evaluation (kernel : Kernel) (store : Store) (inputs : List Number)
    (buffer : Option (List Number)) : Evaluation.Outcome :=
  Evaluation.evaluate kernel.domain (kernel.setting store inputs) kernel.program buffer none

/-- The operations of an evaluation of the program of a kernel. -/
def operations (kernel : Kernel) (store : Store) (inputs : List Number) :
    List (Operation kernel.domain.Scalar) :=
  Evaluation.operations kernel.domain.arithmetic (kernel.setting store inputs) 0
    kernel.program.steps (Machine.start kernel.domain.arithmetic kernel.program.shape.depth)

/-- A point for which a kernel may be compared with an evaluation: every entry has a scalar, the
arithmetic of kernels agrees on what occurs, and no undefined value reaches the unit step. -/
structure Comparable (kernel : Kernel) (store : Store) (inputs : List Number) : Prop where
  converts : ∀ number ∈ inputs, ∃ value, kernel.domain.arithmetic.input number = .ok value
  agreement : Agreement kernel.domain.flushedArithmetic kernel.domain.arithmetic kernel.tolerance
    kernel.domain.Defined (kernel.operations store inputs)

/-- A kernel gives what an evaluation with the given top value gives. Where one value is foretold it
is the top, and otherwise it is all values that are copied into a buffer with room for them. The
kernel reports a substitute exactly when some degradation of the evaluation names it. -/
structure Refines (kernel : Kernel) (store : Store) (inputs : List Number) (top : Number) :
    Prop where
  scalar : kernel.program.shape.height = 1 →
    (kernel.evaluate store inputs).result = .ok (.scalar top)
  vector : kernel.program.shape.height ≠ 1 →
    ∃ values, (kernel.evaluate store inputs).result = .ok (.vector values) ∧
      ∀ buffer : List Number, values.length ≤ buffer.length →
        (kernel.evaluation store inputs (some buffer)).top = .ok top ∧
          (kernel.evaluation store inputs (some buffer)).buffer =
            values ++ buffer.drop values.length
  substitutes : ∀ substitute, substitute ∈ (kernel.evaluate store inputs).log ↔
    ∃ degradation ∈ (kernel.evaluation store inputs none).degradations,
      degradation.substitute = substitute

/-- The output of a kernel for a run that leaves a value. -/
theorem evaluate_of_execAll {kernel : Kernel} {store : Store} {inputs : List Number}
    {point stack : List kernel.domain.Scalar} {cells : CellValues kernel.domain.Scalar}
    {log : List Substitute}
    (readsPoint : readPoint kernel.domain.flushedArithmetic inputs = .ok point)
    (readsCells : readCells kernel.domain.flushedArithmetic store kernel.program = .ok cells)
    (ran : execAll kernel.domain.flushedArithmetic kernel.tolerance point cells
      kernel.program.steps [] = ⟨log, .ok stack⟩) (some : stack ≠ []) :
    kernel.evaluate store inputs =
      ⟨log, .ok ((if kernel.program.shape.height = 1 then .scalar (stack.getLast some)
        else .vector stack : Output kernel.domain.Scalar).map
          kernel.domain.flushedArithmetic.output)⟩ := by
  simp [evaluate, run, readsPoint, readsCells, ran, Logged.bind, ofStack_eq _ some, Logged.value,
    Logged.ofExcept]

/-- Where an evaluation runs to its end and leaves a value, a kernel whose arithmetic agrees with it
gives its stack and reports the same substitutes. -/
theorem evaluate_of_comparable {kernel : Kernel} {store : Store} {inputs : List Number}
    {machine : Machine kernel.domain.Scalar} (comparable : kernel.Comparable store inputs)
    (ran : (Evaluation.run kernel.domain.arithmetic (kernel.setting store inputs)
      kernel.program).result = .ok machine) (some : machine.values ≠ []) :
    kernel.evaluate store inputs =
      ⟨(Evaluation.run kernel.domain.arithmetic (kernel.setting store inputs)
          kernel.program).log.map Degradation.substitute,
        .ok ((if kernel.program.shape.height = 1 then .scalar (machine.values.getLast some)
          else .vector machine.values : Output kernel.domain.Scalar).map
            kernel.domain.arithmetic.output)⟩ := by
  have parallel := kernel.domain.parallel
  have carries := Machine.start_carries kernel.domain.arithmetic kernel.program.shape.depth
  have extended := kernel.program.shape_eq
  obtain ⟨point, cells, readsPoint, readsCells, reads⟩ :=
    exists_reads parallel comparable.converts ran comparable.agreement
  obtain ⟨values, listed, logged, carried, _⟩ :=
    Evaluation.execAll_succeeds_on_list _ _ extended carries (Nat.le_refl _) ran
  have beside := execAll_eq_relog parallel rfl extended carries (Nat.le_refl _) ran
    comparable.agreement reads
  rw [Logged.relog, listed, logged, ← carried.values_eq] at beside
  rw [← parallel.output_eq]
  exact evaluate_of_execAll readsPoint readsCells beside some

/-- Where an evaluation succeeds, a kernel whose arithmetic agrees with it gives the same. -/
theorem refines_of_comparable {kernel : Kernel} {store : Store} {inputs : List Number}
    {top : Number} (comparable : kernel.Comparable store inputs)
    (evaluated : (kernel.evaluation store inputs none).top = .ok top) :
    kernel.Refines store inputs top := by
  obtain ⟨machine, ran, some, rfl⟩ := Evaluation.top_eq_ok_iff.mp evaluated
  have evaluates := evaluate_of_comparable comparable ran some
  have degradations : (kernel.evaluation store inputs none).degradations =
      (Evaluation.run kernel.domain.arithmetic (kernel.setting store inputs)
        kernel.program).log := by
    simp [evaluation, Evaluation.evaluate, ran]
  constructor
  · intro single
    rw [evaluates, if_pos single]
    rfl
  · intro several
    refine ⟨machine.values.map kernel.domain.arithmetic.output, ?_, ?_⟩
    · rw [evaluates, if_neg several]
      rfl
    · intro buffer long
      rw [List.length_map] at long ⊢
      rw [evaluation, Evaluation.evaluate_buffer ran long]
      refine ⟨?_, rfl⟩
      rw [Machine.topValue, List.getLast?_eq_getLast_of_ne_nil some]
      rfl
  · intro substitute
    rw [evaluates, degradations]
    exact List.mem_map

/-! ## Batches -/

/-- Each row of a batch is what the kernel gives for the point in that row. -/
def RowByRow (kernel : Kernel) (store : Store) (points : List BatchPoint)
    (outputs : List (Output Number)) : Prop :=
  List.Forall₂ (fun point output => (kernel.evaluate store point.values).result = .ok output)
    points outputs

/-- Points of one length are a batch of their entries. -/
theorem batchPoints_eq {points : List BatchPoint} {rows : List (List Number)}
    (regular : batchPoints points = .ok rows) : rows = points.map BatchPoint.values := by
  unfold batchPoints at regular
  simp only at regular
  split at regular
  · exact (Except.ok.inj regular).symm
  · cases regular

variable (kernel : Kernel) (store : Store)

/-- What a kernel gives for a point that was read, apart from its reports. -/
def outputAt (point : List kernel.domain.Scalar) : Except Fault (Output Number) := do
  let cells ← readCells kernel.domain.flushedArithmetic store kernel.program
  let output ← (run kernel.domain.flushedArithmetic kernel.tolerance kernel.program point
    cells).result
  return output.map kernel.domain.flushedArithmetic.output

theorem result_evaluate (inputs : List Number) :
    (kernel.evaluate store inputs).result =
      readPoint kernel.domain.flushedArithmetic inputs >>= kernel.outputAt store := by
  simp only [evaluate, Logged.bind_eq, Logged.result_bind, Logged.result_ofExcept,
    Logged.pure_eq, Logged.result_value]
  rfl

/-- A batch of at least one row gives what the kernel gives for each row. -/
theorem runBatch_eq_ok_iff {rows : List (List Number)} (some : rows ≠ [])
    {outputs : List (Output Number)} :
    (kernel.runBatch store rows).result = .ok outputs ↔
      rows.mapM (fun row => (kernel.evaluate store row).result) = .ok outputs := by
  simp only [result_evaluate, mapM_bind_eq_ok_iff]
  rw [runBatch, Logged.bind_eq, Logged.result_bind_eq_ok_iff, Logged.result_ofExcept]
  refine exists_congr fun points => and_congr_right fun read => ?_
  have length := (mapM_eq_ok_iff.mp read).length_eq
  cases points with
  | nil => exact absurd (List.eq_nil_of_length_eq_zero length) some
  | cons point further =>
      -- The cells are read once for the batch and once for each row, with the same outcome.
      cases found : readCells kernel.domain.flushedArithmetic store kernel.program with
      | error cause => simp [outputAt, found, Logged.bind, Logged.fault]
      | ok cells =>
          have each : kernel.outputAt store = fun point =>
              (run kernel.domain.flushedArithmetic kernel.tolerance kernel.program point
                cells).result >>= fun output =>
                  pure (output.map kernel.domain.flushedArithmetic.output) := by
            funext point
            rw [outputAt, found]
            rfl
          rw [each, mapM_bind_eq_ok_iff]
          simp only [List.mapM_pure]
          simp only [Logged.bind_eq, Logged.result_bind_eq_ok_iff, Logged.result_ofExcept,
            Except.ok.injEq, exists_eq_left', Logged.result_mapM, Logged.pure_eq,
            Logged.result_value, Outcome.pure_eq_ok]

/-- A batch without rows gives no outputs, if it gives any list. -/
theorem runBatch_nil {outputs : List (Output Number)}
    (ran : (kernel.runBatch store []).result = .ok outputs) : outputs = [] := by
  obtain ⟨cells, _, later⟩ := Logged.result_bind_eq_ok_iff.mp ran
  obtain ⟨_, _, finished⟩ := Logged.result_bind_eq_ok_iff.mp later
  exact (Except.ok.inj finished).symm

/-- The rows of a batch are what the kernel gives for its points, one by one. A batch of points of
one length does not fail when the kernel has an output for each of them. -/
theorem evaluateBatch_rowByRow (points : List BatchPoint) (outputs : List (Output Number)) :
    ((kernel.evaluateBatch store points).result = .ok outputs →
      kernel.RowByRow store points outputs) ∧
    (points ≠ [] → (∃ rows, batchPoints points = .ok rows) →
      kernel.RowByRow store points outputs →
        (kernel.evaluateBatch store points).result = .ok outputs) := by
  unfold evaluateBatch
  cases regular : batchPoints points with
  | error cause => exact ⟨nofun, fun _ ⟨_, found⟩ => nomatch found⟩
  | ok rows =>
      obtain rfl := batchPoints_eq regular
      simp only [Logged.result_silentFault]
      by_cases none : points = []
      · subst none
        refine ⟨fun ran => ?_, fun some => absurd rfl some⟩
        rw [kernel.runBatch_nil store ran]
        exact .nil
      · have some : points.map BatchPoint.values ≠ [] := by simpa using none
        rw [kernel.runBatch_eq_ok_iff store some, mapM_eq_ok_iff, List.forall₂_map_left_iff]
        exact ⟨id, fun _ _ ran => ran⟩

/-- A kernel refines the evaluation of its program. At every point where an evaluation succeeds and
the two arithmetics agree on what occurs, the kernel gives the value or the values of the evaluation
and reports the same substitutes. A batch gives row by row what the kernel gives for each point. -/
theorem refines_evaluation (kernel : Kernel) (store : Store) :
    (∀ inputs top, kernel.Comparable store inputs →
      (kernel.evaluation store inputs none).top = .ok top → kernel.Refines store inputs top) ∧
    ∀ points outputs,
      ((kernel.evaluateBatch store points).result = .ok outputs →
        kernel.RowByRow store points outputs) ∧
      (points ≠ [] → (∃ rows, batchPoints points = .ok rows) →
        kernel.RowByRow store points outputs →
          (kernel.evaluateBatch store points).result = .ok outputs) := by
  constructor
  · intro inputs top comparable evaluated
    exact refines_of_comparable comparable evaluated
  · exact kernel.evaluateBatch_rowByRow store

/-- The unit step of a comparison with one half, over the complex numbers. -/
def stepOfComparison : Kernel where
  program :=
    { steps := [.argument ⟨1, Nat.one_pos⟩, .constant ⟨.real 0.5, 0⟩,
        .operator (.comparison .greater), .call .step]
      shape := ⟨2, 1, true, 1⟩
      shape_eq := rfl }
  domain := .complex
  tolerance := .real 0

/-- Where a point with an imaginary part is compared, zero takes its place in the kernel too, and
the unit step of the answer is one. -/
theorem refines_stepOfComparison :
    let store : Store := fun _ => .real 0
    let inputs : List Number := [.complex ⟨1, 2⟩]
    stepOfComparison.Comparable store inputs ∧
      (stepOfComparison.evaluation store inputs none).top = .ok (.complex ⟨1, 0⟩) ∧
      stepOfComparison.Refines store inputs (.complex ⟨1, 0⟩) := by
  intro store inputs
  have comparable : stepOfComparison.Comparable store inputs := by
    have occurring : stepOfComparison.operations store inputs =
        [.load (.real 0.5), .isImaginary (⟨1, 2⟩ : Cartesian),
          .isImaginary (⟨0.5, 0⟩ : Cartesian),
          .apply .sub (⟨0, 0⟩ : Cartesian) (⟨0.5, 0⟩ : Cartesian),
          .exceeds (⟨-0.5, 0⟩ : Cartesian), .isNegative (⟨0, 0⟩ : Cartesian)] := rfl
    constructor
    · intro number member
      rw [List.mem_singleton.mp member]
      exact ⟨_, rfl⟩
    · rw [occurring]
      constructor
      · simp only [List.forall_mem_cons]
        exact ⟨rfl, rfl, rfl, rfl, rfl, rfl, nofun⟩
      · intro value member
        simp only [List.mem_cons, reduceCtorEq, List.not_mem_nil, false_or, or_false] at member
        rw [Operation.isNegative.inj member]
        rfl
  have evaluated :
      (stepOfComparison.evaluation store inputs none).top = .ok (.complex ⟨1, 0⟩) := rfl
  exact ⟨comparable, evaluated,
    (refines_evaluation stepOfComparison store).1 inputs _ comparable evaluated⟩

end Kernel

end Formulary
