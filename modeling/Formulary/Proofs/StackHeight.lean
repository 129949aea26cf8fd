import Formulary.Proofs.Supply

/-!
# The height that a shape foretells

A program's shape foretells the height of the stack after each of its steps. `RunsToShape` says that
a run reaches these heights, stays within the work area, and leaves a result.

Not every program that can be made does. A vector that is scaled or divided by a wider operand
leaves more values than foretold, since the shape goes by the width of the vector alone; what comes
after it may find the work area full. And a negation may have no width at all, so a program of
nothing else leaves no result. `runsToShape_iff` says that these two are the only ways to go wrong.
-/

namespace Formulary

namespace Step

/-- Whether a step changes signs only. -/
def IsNegation (step : Step) : Prop := ∃ width, step = .negate width

/-- A step other than a negation leaves a value at least. -/
theorem heightAfter_pos {step : Step} {height : Nat} (enough : step.operands ≤ height)
    (leaves : ¬step.IsNegation) : 1 ≤ Shape.heightAfter height step := by
  cases step with
  | negate width => exact absurd ⟨width, rfl⟩ leaves
  | vector operator left right =>
      have leftPositive := left.property
      have rightPositive := right.property
      cases operator <;>
        (simp only [Shape.heightAfter, operands, pops, pushes, VectorOperator.resultWidth]
          at enough ⊢
         omega)
  | _ =>
      simp only [Shape.heightAfter, operands, pops, pushes] at enough ⊢
      omega

/-- A negation leaves the height as it is. -/
theorem heightAfter_negation {step : Step} {height : Nat} (negation : step.IsNegation) :
    Shape.heightAfter height step = height := by
  obtain ⟨width, rfl⟩ := negation
  simp [Shape.heightAfter, pops, pushes]

end Step

namespace Shape

/-- A stack with a value on it keeps one, and an empty one gets one from the first step that is no
negation. -/
theorem height_pos_iff {steps : List Step} {index : Nat} {shape final : Shape}
    (extended : extendAll index shape steps = .ok final) :
    1 ≤ final.height ↔ 1 ≤ shape.height ∨ ∃ step ∈ steps, ¬step.IsNegation := by
  induction steps generalizing index shape with
  | nil =>
      cases extended
      simp
  | cons step rest inductionHypothesis =>
      obtain ⟨next, first, later⟩ := extendAll_cons_iff.mp extended
      have follows := extend_follows first
      rw [inductionHypothesis later, follows.height_eq]
      by_cases negation : step.IsNegation
      · simp [step.heightAfter_negation negation, negation]
      · simp [Step.heightAfter_pos follows.enough negation, negation]

/-- A first part of the steps of a program has a shape, which is no deeper. -/
theorem exists_take (program : Program) (count : Nat) :
    ∃ shape, ofSteps (program.steps.take count) = .ok shape ∧
      extendAll (program.steps.take count).length shape (program.steps.drop count) =
        .ok program.shape := by
  have whole := program.shape_eq
  rw [← List.take_append_drop count program.steps, ofSteps, extendAll_append_iff] at whole
  simpa [ofSteps] using whole

end Shape

namespace Program

variable (program : Program) (domain : Domain) (setting : Setting)

/-- The work area after the first steps of a program. -/
def machineAfter (count : Nat) : Except Fault (Machine domain.Scalar) :=
  (Evaluation.execAll domain.arithmetic setting 0 (program.steps.take count)
    (Machine.start domain.arithmetic program.shape.depth)).result

/-- A run of a program does what its shape foretells. Reading or writing outside the work area is a
fault, so a run that is `ok` never did. -/
structure RunsToShape : Prop where
  heights : ∀ count ≤ program.size, ∃ machine shape,
    program.machineAfter domain setting count = .ok machine ∧
      Shape.ofSteps (program.steps.take count) = .ok shape ∧ machine.top = shape.height
  finishes : ∃ machine, (Evaluation.run domain.arithmetic setting program).result = .ok machine ∧
    machine.values.length = program.shape.height
  succeeds : ∃ value, (Evaluation.evaluate domain setting program none none).top = .ok value
  positive : 1 ≤ program.shape.height

variable {program domain setting}

/-- After balanced steps the stack has the height of their shape. -/
theorem machineAfter_of_balanced (supplied : setting.Supplies domain program)
    (balanced : ∀ step ∈ program.steps, step.Balanced) (count : Nat) :
    ∃ machine shape, program.machineAfter domain setting count = .ok machine ∧
      Shape.ofSteps (program.steps.take count) = .ok shape ∧ machine.top = shape.height ∧
      machine.values.length = shape.height := by
  obtain ⟨bound, tolerance, decides⟩ := supplied.tolerance
  obtain ⟨shape, extended, later⟩ := Shape.exists_take program count
  have members : ∀ step ∈ program.steps.take count, step ∈ program.steps :=
    fun step member => List.mem_of_mem_take member
  have nothing : ({} : Shape).height ≤ ([] : List domain.Scalar).length := Nat.le_refl 0
  obtain ⟨values, ran, _⟩ := Evaluation.execAllList_succeeds tolerance decides 0
    (fun step member => supplied.provides step (members step member)) extended nothing
  have carries := Machine.start_carries domain.arithmetic program.shape.depth
  have room : shape.depth ≤ (Machine.start domain.arithmetic program.shape.depth).memory.size := by
    simpa [Machine.start] using (Shape.extendAll_grows later).1
  have related := Evaluation.execAll_related_balanced domain.arithmetic setting 0
    (fun step member => balanced step (members step member)) extended carries rfl room
  obtain ⟨machine, finished, ⟨_, carried⟩, tall⟩ := related.result_of_right ran
  exact ⟨machine, shape, finished, extended, carried.top_eq.trans tall,
    by rw [carried.values_eq, tall]⟩

/-- Where the stack has the heights of the shape before and after a step, the step is balanced. -/
theorem balanced_of_heights
    (heights : ∀ count ≤ program.size, ∃ machine shape,
      program.machineAfter domain setting count = .ok machine ∧
        Shape.ofSteps (program.steps.take count) = .ok shape ∧ machine.top = shape.height) :
    ∀ step ∈ program.steps, step.Balanced := by
  intro step member
  obtain ⟨place, inside, rfl⟩ := List.getElem_of_mem member
  obtain ⟨before, shape, ranBefore, extended, topBefore⟩ := heights place (Nat.le_of_lt inside)
  obtain ⟨after, next, ranAfter, extendedNext, topAfter⟩ := heights (place + 1) inside
  have carries := Machine.start_carries domain.arithmetic program.shape.depth
  obtain ⟨stack, listed, _, carried, _⟩ :=
    Evaluation.execAll_succeeds_on_list _ setting extended carries (Nat.le_refl _) ranBefore
  obtain ⟨values, listedNext, _, carriedNext, _⟩ :=
    Evaluation.execAll_succeeds_on_list _ setting extendedNext carries (Nat.le_refl _) ranAfter
  rw [List.take_succ_eq_append_getElem inside] at extendedNext listedNext
  obtain ⟨found, again, one⟩ := Shape.extendAll_append_iff.mp extendedNext
  obtain rfl : shape = found := by
    rw [Shape.ofSteps, again] at extended
    exact (Except.ok.inj extended).symm
  obtain ⟨_, extendedStep, done⟩ := Shape.extendAll_cons_iff.mp one
  cases done
  have follows := Shape.extend_follows extendedStep
  rw [Evaluation.execAllList_append] at listedNext
  obtain ⟨_, listedAgain, ranStep⟩ := Logged.result_bind_eq_ok_iff.mp listedNext
  obtain rfl := Except.ok.inj (listed.symm.trans listedAgain)
  obtain ⟨_, ranStep, done⟩ := Logged.result_bind_eq_ok_iff.mp ranStep
  cases done
  have height : stack.length = shape.height := carried.top_eq.symm.trans topBefore
  have enough : program.steps[place].operands ≤ stack.length := height ▸ follows.enough
  have left := Evaluation.length_execList enough ranStep
  rw [height, ← carriedNext.top_eq, topAfter, follows.height_eq] at left
  exact (Step.heightAfter_eq_iff _ follows.enough).mp left

/-- A run does what the shape foretells if the steps are balanced and one of them leaves a value. -/
theorem runsToShape_of_balanced (supplied : setting.Supplies domain program)
    (balanced : ∀ step ∈ program.steps, step.Balanced) (positive : 1 ≤ program.shape.height) :
    program.RunsToShape domain setting := by
  have reaches := machineAfter_of_balanced supplied balanced
  obtain ⟨machine, shape, ran, extended, top, height⟩ := reaches program.size
  simp only [machineAfter, size, List.take_length] at ran extended
  rw [program.shape_eq] at extended
  cases extended
  refine ⟨?_, ⟨machine, ran, height⟩, ?_, positive⟩
  · intro count _
    obtain ⟨machine, shape, ran, extended, top, _⟩ := reaches count
    exact ⟨machine, shape, ran, extended, top⟩
  · have taken : machine.values ≠ [] := List.ne_nil_of_length_pos (by omega)
    refine ⟨domain.arithmetic.output (machine.values.getLast taken), ?_⟩
    have finished : (Evaluation.run domain.arithmetic setting program).result = .ok machine := ran
    simp [Evaluation.evaluate, finished, Machine.topValue,
      List.getLast?_eq_getLast_of_ne_nil taken]
    rfl

/-- A run does what the shape foretells exactly for programs of balanced steps of which one at least
is no negation. -/
theorem runsToShape_iff (supplied : setting.Supplies domain program) :
    program.RunsToShape domain setting ↔
      (∀ step ∈ program.steps, step.Balanced) ∧ ∃ step ∈ program.steps, ¬step.IsNegation := by
  have positive : 1 ≤ program.shape.height ↔ ∃ step ∈ program.steps, ¬step.IsNegation := by
    simpa using Shape.height_pos_iff program.shape_eq
  constructor
  · intro runs
    exact ⟨balanced_of_heights runs.heights, positive.mp runs.positive⟩
  · rintro ⟨balanced, leaves⟩
    exact runsToShape_of_balanced supplied balanced (positive.mpr leaves)

/-- One value, scaled by two values from the right. -/
def wideScalar : Program where
  steps := [.constant ⟨.real 1, 0⟩, .constant ⟨.real 2, 0⟩, .constant ⟨.real 3, 0⟩,
    .vector .scaleRight ⟨1, Nat.one_pos⟩ ⟨2, Nat.two_pos⟩]
  shape := ⟨3, 1, false, 0⟩
  shape_eq := rfl

/-- The scaled value leaves two values where one was foretold. -/
theorem not_runsToShape_wideScalar :
    ¬wideScalar.RunsToShape .real ⟨[], fun _ => .real 0, some (.real 0)⟩ := by
  rw [runsToShape_iff ⟨by decide, by simp, by simp [wideScalar, Number.isTooLarge],
    fun _ _ => rfl, .real 0, rfl, rfl, rfl⟩]
  rintro ⟨balanced, _⟩
  have last := balanced (.vector .scaleRight ⟨1, Nat.one_pos⟩ ⟨2, Nat.two_pos⟩)
    (by simp [wideScalar])
  exact absurd last (by decide)

end Program

end Formulary
