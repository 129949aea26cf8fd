import Formulary.Proofs.Replaying
import Formulary.Proofs.StackHeight

/-!
# The widths of a replay

The entries of a replay stack stand for groups of values, and the height of the shape counts these
values one by one. The two go together as long as no group has a negative width. A negation may be
made with one, and then it takes nothing and leaves an entry that counts less than nothing, while
the height stays; from there on the entries are short of the height by what the negation went below
zero, and a later step may find the stack empty.

Taking a group off the stack lowers the total of the widths by the width of the group, whatever the
entries are. That accounts for every program. That a group can be taken at all is shown for stacks
without negative widths only.
-/

namespace Formulary

open Outcome (bind_eq_ok_iff)
open ReplayEntry (total)

namespace Step

/-- How far the width of a step is below zero. -/
def deficit : Step → Nat
  | negate width => (-width).toNat
  | _ => 0

/-- No step but a negation has a negative width. -/
theorem deficit_eq_zero_iff {step : Step} :
    step.deficit = 0 ↔ ∀ width, step = .negate width → 0 ≤ width := by
  cases step with
  | negate width =>
      simp only [deficit, negate.injEq, forall_eq']
      omega
  | _ => simp [deficit]

/-- The height after a step, by what the step takes and leaves. -/
theorem heightAfter_add_operands {step : Step} {height : Nat} (enough : step.operands ≤ height) :
    (Shape.heightAfter height step : Int) + step.operands =
      height + step.pushes + step.deficit := by
  cases step with
  | vector operator left right =>
      have leftPositive := left.property
      have rightPositive := right.property
      cases operator <;>
        (simp only [Shape.heightAfter, operands, pops, pushes, deficit,
          VectorOperator.resultWidth] at enough ⊢
         omega)
  | _ =>
      simp only [Shape.heightAfter, operands, pops, pushes, deficit] at enough ⊢
      omega

end Step

/-! ## Taking groups -/

/-- No entry has a negative width. -/
def ReplayEntry.Nonnegative (entries : List ReplayEntry) : Prop :=
  ∀ entry ∈ entries, 0 ≤ entry.width

theorem ReplayEntry.Nonnegative.push {below : List ReplayEntry} (counted : Nonnegative below)
    {formula : Replayed} {width : Int} (wide : 0 ≤ width) :
    Nonnegative (⟨formula, width⟩ :: below) :=
  List.forall_mem_cons.mpr ⟨wide, counted⟩

namespace Replay

open ReplayEntry (Nonnegative)

variable {stack below : List ReplayEntry} {width : Int}

@[simp] theorem total_nil : total [] = 0 := rfl

@[simp] theorem total_cons (entry : ReplayEntry) (below : List ReplayEntry) :
    total (entry :: below) = entry.width + total below := by
  simp [total]

/-- Components are scalars. -/
theorem total_components (formula : Replayed) (kept : Nat) (below : List ReplayEntry) :
    total ((components formula 0 kept).reverse.map (fun part => ⟨part, 1⟩) ++ below) =
      kept + total below := by
  simp [total, components, Function.comp_def]

/-- A group that is taken off a stack lowers its total by the values that were wanted. -/
theorem total_takeGroup {taken : Int} {parts found : List Replayed} (started : taken ≤ width)
    (took : takeGroup width taken parts stack = .ok (found, below)) :
    total below + width = total stack + taken := by
  induction stack generalizing taken parts with
  | nil =>
      rw [takeGroup] at took
      split at took
      case isTrue => cases took
      case isFalse enough =>
          cases took
          omega
  | cons entry rest inductionHypothesis =>
      rw [takeGroup] at took
      split at took
      case isTrue short =>
          split at took
          case isTrue wide =>
              cases took
              rw [total_components, total_cons]
              omega
          case isFalse fits =>
              have later := inductionHypothesis (by omega) took
              rw [total_cons]
              omega
      case isFalse enough =>
          cases took
          omega

theorem total_popGroup {formula : Replayed} (took : popGroup width stack = .ok (formula, below)) :
    total below + width.toNat = total stack := by
  obtain ⟨⟨parts, rest⟩, took, finished⟩ := bind_eq_ok_iff.mp took
  cases finished
  by_cases wanted : 0 ≤ width
  · have taken := total_takeGroup wanted took
    omega
  · -- Nothing is wanted, so the stack is not looked at.
    have enough : ¬0 < width := by omega
    cases stack with
    | nil =>
        rw [takeGroup, if_neg enough] at took
        cases took
        omega
    | cons entry rest =>
        rw [takeGroup, if_neg enough] at took
        cases took
        omega

/-- Two groups lower the total by the values of both. -/
theorem total_popTwo (left right : Nat) {first second : Replayed} {between : List ReplayEntry}
    (tookSecond : popGroup right stack = .ok (second, between))
    (tookFirst : popGroup left between = .ok (first, below)) :
    total below + (left + right : Nat) = total stack := by
  have takenSecond := total_popGroup tookSecond
  have takenFirst := total_popGroup tookFirst
  omega

theorem total_popScalars {count : Nat} {taken found : List Replayed}
    (took : popScalars count taken stack = .ok (found, below)) :
    total below + count = total stack := by
  induction count generalizing taken stack with
  | zero =>
      cases took
      simp
  | succ count inductionHypothesis =>
      obtain ⟨⟨value, rest⟩, first, others⟩ := bind_eq_ok_iff.mp took
      have one := total_popGroup first
      have more := inductionHypothesis others
      push_cast
      omega

/-- A group is taken off a stack without negative widths whose total is enough for it. -/
theorem takeGroup_succeeds {taken : Int} (parts : List Replayed) (counted : Nonnegative stack)
    (enough : width ≤ taken + total stack) :
    ∃ found below, takeGroup width taken parts stack = .ok (found, below) ∧ Nonnegative below := by
  induction stack generalizing taken parts with
  | nil =>
      rw [takeGroup, if_neg (by simpa using enough)]
      exact ⟨parts, [], rfl, counted⟩
  | cons entry rest inductionHypothesis =>
      have countedRest : Nonnegative rest := fun other member => counted other (.tail _ member)
      rw [takeGroup]
      by_cases short : taken < width
      · rw [if_pos short]
        by_cases wide : width < taken + entry.width
        · rw [if_pos wide]
          refine ⟨_, _, rfl, fun other member => ?_⟩
          rcases List.mem_append.mp member with split | kept
          · obtain ⟨part, -, rfl⟩ := List.mem_map.mp split
            exact Int.one_nonneg
          · exact countedRest other kept
        · rw [if_neg wide]
          rw [total_cons] at enough
          exact inductionHypothesis _ countedRest (by omega)
      · rw [if_neg short]
        exact ⟨parts, entry :: rest, rfl, counted⟩

theorem popGroup_succeeds (counted : Nonnegative stack) (enough : width ≤ total stack) :
    ∃ formula below, popGroup width stack = .ok (formula, below) ∧ Nonnegative below := by
  have needed : width ≤ 0 + total stack := by omega
  obtain ⟨parts, below, took, kept⟩ := takeGroup_succeeds [] counted needed
  exact ⟨_, below, bind_eq_ok_iff.mpr ⟨_, took, rfl⟩, kept⟩

theorem popScalars_succeeds (count : Nat) (taken : List Replayed) (counted : Nonnegative stack)
    (enough : count ≤ total stack) :
    ∃ found below, popScalars count taken stack = .ok (found, below) ∧ Nonnegative below := by
  induction count generalizing taken stack with
  | zero => exact ⟨taken, stack, rfl, counted⟩
  | succ count inductionHypothesis =>
      push_cast at enough
      have one : 1 ≤ total stack := by omega
      obtain ⟨value, rest, took, kept⟩ := popGroup_succeeds counted one
      have left := total_popGroup took
      obtain ⟨found, below, others, keptOthers⟩ :=
        inductionHypothesis (value :: taken) kept (by omega)
      exact ⟨found, below, bind_eq_ok_iff.mpr ⟨_, took, others⟩, keptOthers⟩

/-- Two groups are taken off a stack, the upper one first. -/
theorem popTwo_succeeds (left right : Int) (counted : Nonnegative stack) (leftWide : 0 ≤ left)
    (rightWide : 0 ≤ right) (enough : left + right ≤ total stack) :
    ∃ second between first below, popGroup right stack = .ok (second, between) ∧
      popGroup left between = .ok (first, below) ∧ Nonnegative below := by
  have upper : right ≤ total stack := by omega
  obtain ⟨second, between, tookSecond, keptSecond⟩ := popGroup_succeeds counted upper
  have taken := total_popGroup tookSecond
  have lower : left ≤ total between := by omega
  obtain ⟨first, below, tookFirst, keptFirst⟩ := popGroup_succeeds keptSecond lower
  exact ⟨second, between, first, below, tookSecond, tookFirst, keptFirst⟩

/-! ## Steps -/

/-- A step takes its operands off the stack and leaves one entry for what it puts there. -/
theorem pushed_of_step {step : Step} {next : List ReplayEntry}
    (ran : Replay.step step stack = .ok next) :
    ∃ formula below, next = ⟨formula, step.pushes⟩ :: below ∧
      total below + step.operands = total stack := by
  cases step with
  | constant value =>
      rw [Replay.step] at ran
      split at ran <;> cases ran
      exact ⟨_, _, rfl, Int.add_zero _⟩
  | argument slot | external cell =>
      cases ran
      exact ⟨_, _, rfl, Int.add_zero _⟩
  | call function =>
      obtain ⟨⟨arguments, below⟩, took, finished⟩ := bind_eq_ok_iff.mp ran
      cases finished
      exact ⟨_, _, rfl, total_popScalars took⟩
  | negate width =>
      obtain ⟨⟨operand, below⟩, took, finished⟩ := bind_eq_ok_iff.mp ran
      cases finished
      exact ⟨_, _, rfl, total_popGroup took⟩
  | vector operator left right =>
      obtain ⟨⟨second, between⟩, tookSecond, later⟩ := bind_eq_ok_iff.mp ran
      obtain ⟨⟨first, below⟩, tookFirst, finished⟩ := bind_eq_ok_iff.mp later
      cases finished
      exact ⟨_, _, rfl, total_popTwo left.val right.val tookSecond tookFirst⟩
  | operator found =>
      cases found with
      | not =>
          obtain ⟨⟨operand, below⟩, took, finished⟩ := bind_eq_ok_iff.mp ran
          cases finished
          exact ⟨_, _, rfl, total_popGroup took⟩
      | _ =>
          obtain ⟨⟨second, between⟩, tookSecond, later⟩ := bind_eq_ok_iff.mp ran
          obtain ⟨⟨first, below⟩, tookFirst, finished⟩ := bind_eq_ok_iff.mp later
          cases finished
          exact ⟨_, _, rfl, total_popTwo 1 1 tookSecond tookFirst⟩

/-- A step changes the total by what it takes and leaves. -/
theorem total_step {step : Step} {next : List ReplayEntry}
    (ran : Replay.step step stack = .ok next) :
    total next + step.operands = total stack + step.pushes := by
  obtain ⟨formula, below, rfl, taken⟩ := pushed_of_step ran
  simp only [total_cons]
  omega

/-- A step whose operands are there is replayed, unless it is a negation of a negative width or a
constant that cannot be written. -/
theorem step_succeeds {step : Step} (counted : Nonnegative stack)
    (enough : step.operands ≤ total stack) (written : step.isUnwritable = false)
    (whole : step.deficit = 0) :
    ∃ next, Replay.step step stack = .ok next ∧ Nonnegative next := by
  cases step with
  | constant value =>
      refine ⟨⟨.constant value, 1⟩ :: stack, ?_, counted.push Int.one_nonneg⟩
      rw [Step.isUnwritable] at written
      rw [Replay.step, written]
      rfl
  | argument slot => exact ⟨_, rfl, counted.push Int.one_nonneg⟩
  | external cell => exact ⟨_, rfl, counted.push Int.one_nonneg⟩
  | call function =>
      obtain ⟨arguments, below, took, kept⟩ :=
        popScalars_succeeds function.arity [] counted enough
      exact ⟨_, bind_eq_ok_iff.mpr ⟨_, took, rfl⟩, kept.push Int.one_nonneg⟩
  | negate width =>
      have wide : 0 ≤ width := Step.deficit_eq_zero_iff.mp whole width rfl
      simp only [Step.operands] at enough
      have narrow : width ≤ total stack := by omega
      obtain ⟨operand, below, took, kept⟩ := popGroup_succeeds counted narrow
      exact ⟨_, bind_eq_ok_iff.mpr ⟨_, took, rfl⟩, kept.push wide⟩
  | vector operator left right =>
      obtain ⟨second, between, first, below, tookSecond, tookFirst, kept⟩ :=
        popTwo_succeeds left.val right.val counted (Int.natCast_nonneg _)
          (Int.natCast_nonneg _) (by simpa [Step.operands] using enough)
      exact ⟨_, bind_eq_ok_iff.mpr ⟨_, tookSecond, bind_eq_ok_iff.mpr ⟨_, tookFirst, rfl⟩⟩,
        kept.push (Int.natCast_nonneg _)⟩
  | operator found =>
      cases found with
      | not =>
          have one : 1 ≤ total stack := enough
          obtain ⟨operand, below, took, kept⟩ := popGroup_succeeds counted one
          exact ⟨_, bind_eq_ok_iff.mpr ⟨_, took, rfl⟩, kept.push Int.one_nonneg⟩
      | _ =>
          obtain ⟨second, between, first, below, tookSecond, tookFirst, kept⟩ :=
            popTwo_succeeds 1 1 counted Int.one_nonneg Int.one_nonneg enough
          exact ⟨_, bind_eq_ok_iff.mpr ⟨_, tookSecond, bind_eq_ok_iff.mpr ⟨_, tookFirst, rfl⟩⟩,
            kept.push Int.one_nonneg⟩

/-! ## Runs -/

/-- How far the widths of steps are below zero, together. -/
def deficit (steps : List Step) : Nat :=
  (steps.map Step.deficit).sum

/-- What the entries are short of the height after some steps is what the widths of the negations
among them are below zero. -/
theorem total_run {steps : List Step} {index : Nat} {shape final : Shape}
    {next : List ReplayEntry} (extended : Shape.extendAll index shape steps = .ok final)
    {short : Nat} (started : total stack + short = shape.height)
    (ran : run steps stack = .ok next) :
    total next + short + deficit steps = final.height := by
  induction steps generalizing index shape stack short with
  | nil =>
      cases extended
      cases ran
      simpa [deficit] using started
  | cons step rest inductionHypothesis =>
      obtain ⟨reached, extendedFirst, extendedRest⟩ := Shape.extendAll_cons_iff.mp extended
      obtain ⟨middle, ranFirst, ranRest⟩ := bind_eq_ok_iff.mp ran
      have follows := Shape.extend_follows extendedFirst
      have changed := total_step ranFirst
      have height := step.heightAfter_add_operands follows.enough
      rw [← follows.height_eq] at height
      have startedRest : total middle + (short + step.deficit : Nat) = reached.height := by
        push_cast
        omega
      have later := inductionHypothesis extendedRest startedRest ranRest
      simp only [deficit, List.map_cons, List.sum_cons] at later ⊢
      push_cast at later ⊢
      omega

/-- Steps that make a program are replayed if no width is negative. -/
theorem run_succeeds {steps : List Step} {index : Nat} {shape final : Shape}
    (extended : Shape.extendAll index shape steps = .ok final)
    (written : Expression.Writable steps) (whole : ∀ step ∈ steps, step.deficit = 0)
    (counted : Nonnegative stack) (started : total stack = shape.height) :
    ∃ next, run steps stack = .ok next := by
  induction steps generalizing index shape stack with
  | nil => exact ⟨stack, rfl⟩
  | cons step rest inductionHypothesis =>
      obtain ⟨reached, extendedFirst, extendedRest⟩ := Shape.extendAll_cons_iff.mp extended
      have follows := Shape.extend_follows extendedFirst
      have enough := follows.enough
      have provided : step.operands ≤ total stack := by omega
      obtain ⟨middle, ranFirst, counted⟩ := step_succeeds counted provided
        (written step List.mem_cons_self) (whole step List.mem_cons_self)
      have changed := total_step ranFirst
      have height := step.heightAfter_add_operands enough
      rw [← follows.height_eq, whole step List.mem_cons_self] at height
      obtain ⟨next, ranRest⟩ := inductionHypothesis extendedRest
        (fun other member => written other (.tail _ member))
        (fun other member => whole other (.tail _ member)) counted (by omega)
      exact ⟨next, bind_eq_ok_iff.mpr ⟨middle, ranFirst, ranRest⟩⟩

end Replay

/-! ## Programs -/

namespace Program

variable {program : Program}

/-- A program has a text, and after each of its steps the entries of the replay stand for as many
values as its shape counts. -/
structure RendersToShape (program : Program) : Prop where
  heights : ∀ count ≤ program.size, ∃ stack shape,
    Replay.run (program.steps.take count) [] = .ok stack ∧
      Shape.ofSteps (program.steps.take count) = .ok shape ∧ total stack = shape.height
  text : ∀ naming, ∃ text, program.formulaText naming = .ok text

/-- The widths of the negations of a program are all zero or more exactly when none of its steps is
short of anything. -/
theorem deficit_eq_zero_iff :
    Replay.deficit program.steps = 0 ↔
      ∀ width, Step.negate width ∈ program.steps → 0 ≤ width := by
  simp only [Replay.deficit, List.sum_eq_zero_iff, List.forall_mem_map, Step.deficit_eq_zero_iff]
  constructor
  · exact fun whole width member => whole _ member width rfl
  · rintro whole step member width rfl
    exact whole width member

/-- Where the replay of the first steps of a program succeeds, the entries are short of the height
by what the widths of the negations so far are below zero. -/
theorem total_of_replay {count : Nat} {stack : List ReplayEntry}
    (ran : Replay.run (program.steps.take count) [] = .ok stack) :
    ∃ shape, Shape.ofSteps (program.steps.take count) = .ok shape ∧
      total stack + Replay.deficit (program.steps.take count) = shape.height := by
  obtain ⟨shape, extended, _⟩ := Shape.exists_take program count
  have started : total [] + (0 : Nat) = (0 : Nat) := rfl
  have accounted := Replay.total_run extended started ran
  exact ⟨shape, extended, by simpa using accounted⟩

/-- A program without negative widths whose constants have a text is replayed, step by step. -/
theorem replay_succeeds (written : program.isWritable = true)
    (whole : Replay.deficit program.steps = 0) (count : Nat) :
    ∃ stack, Replay.run (program.steps.take count) [] = .ok stack ∧
      Replay.deficit (program.steps.take count) = 0 := by
  have writable : Expression.Writable program.steps := by
    simpa [isWritable, Expression.Writable] using written
  have none : ∀ step ∈ program.steps.take count, step.deficit = 0 := fun step member =>
    List.sum_eq_zero_iff.mp whole _ (List.mem_map_of_mem (List.mem_of_mem_take member))
  obtain ⟨shape, extended, _⟩ := Shape.exists_take program count
  have counted : ReplayEntry.Nonnegative [] := List.forall_mem_nil _
  obtain ⟨stack, ran⟩ := Replay.run_succeeds extended
    (fun step member => writable step (List.mem_of_mem_take member)) none counted rfl
  exact ⟨stack, ran, List.sum_eq_zero_iff.mpr (List.forall_mem_map.mpr none)⟩

/-- A program whose constants have a text is rendered to its shape exactly when no negation in it
has a negative width. And wherever its replay succeeds, whatever the widths are, the entries are
short of the height by what the widths of the negations so far are below zero. -/
theorem rendersToShape_iff (written : program.isWritable = true) :
    (program.RendersToShape ↔ ∀ width, Step.negate width ∈ program.steps → 0 ≤ width) ∧
    ∀ count stack, Replay.run (program.steps.take count) [] = .ok stack →
      ∃ shape, Shape.ofSteps (program.steps.take count) = .ok shape ∧
        total stack + Replay.deficit (program.steps.take count) = shape.height := by
  refine ⟨⟨fun renders => ?_, fun whole => ?_⟩, fun _ _ => total_of_replay⟩
  · obtain ⟨stack, shape, ran, extended, exact⟩ := renders.heights program.size (Nat.le_refl _)
    obtain ⟨same, again, short⟩ := total_of_replay ran
    obtain rfl := Except.ok.inj (extended.symm.trans again)
    rw [size, List.take_length] at short
    exact deficit_eq_zero_iff.mp (by omega)
  · have reaches := replay_succeeds written (deficit_eq_zero_iff.mpr whole)
    constructor
    · intro count _
      obtain ⟨stack, ran, nothing⟩ := reaches count
      obtain ⟨shape, extended, accounted⟩ := total_of_replay ran
      exact ⟨stack, shape, ran, extended, by omega⟩
    · intro naming
      obtain ⟨stack, ran, _⟩ := reaches program.size
      rw [size, List.take_length] at ran
      exact ⟨_, by rw [formulaText, replay, ran]; rfl⟩

/-- A negation of a width below zero, with another negation behind it. -/
def belowZero : Program where
  steps := [.constant ⟨.real 1, 0⟩, .negate (-2), .negate 1]
  shape := ⟨1, 1, false, 0⟩
  shape_eq := rfl

/-- The first negation leaves nothing for the second one to take. -/
theorem not_rendersToShape_belowZero :
    ¬belowZero.RendersToShape ∧ belowZero.replay.map (fun _ => ()) = .error .emptyStack := by
  constructor
  · rw [(rendersToShape_iff (by decide)).1]
    intro whole
    have wide : (0 : Int) ≤ -2 := whole (-2) (by simp [belowZero])
    omega
  · rfl

end Program

end Formulary
