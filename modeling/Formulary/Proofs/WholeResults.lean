import Formulary.Proofs.FormulaKernels
import Formulary.Proofs.StackHeight
import Formulary.Proofs.Usability

/-!
# Whole results

A formula that is evaluated into a buffer hands out as many of the topmost values as its result is
wide. Where the width of the result follows the height of the program, and the program leaves what
its shape foretells, that is the whole stack. It is copied from the start of the buffer on, and what
lies behind it stays.

The shape can be trusted as soon as vectors are scaled and divided by scalars only. A program of
negations without a width would leave nothing at all, which is why they are excluded too; the code
of a source has neither.
-/

namespace Formulary

/-- A program in which every operator has the widths that it is meant for starts with a step that
leaves a value, since there is nothing yet of which the sign could be changed. -/
theorem Program.exists_not_isNegation {program : Program} (some : program.steps ≠ [])
    (widthed : ∀ step ∈ program.steps, step.WellWidthed) :
    ∃ step ∈ program.steps, ¬step.IsNegation := by
  obtain ⟨first, rest, steps⟩ := List.exists_cons_of_ne_nil some
  have member : first ∈ program.steps := by rw [steps]; exact List.mem_cons_self
  refine ⟨first, member, ?_⟩
  rintro ⟨width, rfl⟩
  have extended := program.shape_eq
  rw [steps] at extended
  obtain ⟨next, extendedFirst, _⟩ := Shape.extendAll_cons_iff.mp extended
  have enough := (Shape.extend_follows extendedFirst).enough
  have wide : 1 ≤ width := widthed _ member
  simp only [Step.operands] at enough
  omega

namespace Evaluation

variable {domain : Domain} {setting : Setting} {program : Program}

/-- An evaluation that is asked for as many values as there are copies them in order, as far as the
buffer reaches, and leaves what lies behind them. -/
theorem evaluate_whole {machine : Machine domain.Scalar}
    (ran : (run domain.arithmetic setting program).result = .ok machine)
    (some : machine.values ≠ []) {width : Int} (whole : width = machine.values.length)
    (buffer : List Number) :
    evaluate domain setting program (.some buffer) (.some width) =
      { top :=
          if buffer.length < machine.values.length then .error .shortOutput
          else .ok (domain.arithmetic.output (machine.values.getLast some))
        degradations := (run domain.arithmetic setting program).log
        buffer :=
          (machine.values.map domain.arithmetic.output).take buffer.length ++
            buffer.drop machine.values.length } := by
  have count : outputCount (.some width) machine.values.length = machine.values.length := by
    simp [outputCount, whole]
  have top : machine.topValue = .ok (machine.values.getLast some) := by
    rw [Machine.topValue, List.getLast?_eq_getLast_of_ne_nil some]
  by_cases short : buffer.length < machine.values.length <;>
    simp [evaluate, ran, count, copyOut, short, top, Except.map]

end Evaluation

/-- The program is one that a source was compiled to. -/
def Program.IsCompiled (program : Program) : Prop :=
  ∃ scope source compiled, compile scope source = .ok compiled ∧ compiled.program = program

/-- An evaluation of a formula into a buffer, at the width of its result. A run that is supplied
with what it reads ends, and one that ends leaves as many values as the result is wide; the values,
and nothing else, are written. The evaluation fails where the buffer is too short for them, or where
the run fails, and then nothing is written. -/
structure Formula.HandsOutStack (formula : Formula) (store : Store) (domain : Domain)
    (point buffer : List Number) : Prop where
  ends : (formula.setting store point).Supplies domain formula.program →
    ∃ machine, (Evaluation.run domain.arithmetic (formula.setting store point)
      formula.program).result = .ok machine
  whole : ∀ machine, (Evaluation.run domain.arithmetic (formula.setting store point)
      formula.program).result = .ok machine →
    formula.dimension = machine.values.length ∧ ∃ some : machine.values ≠ [],
      formula.evaluateInto store domain point buffer none = .ok
        { top :=
            if buffer.length < machine.values.length then .error .shortOutput
            else .ok (domain.arithmetic.output (machine.values.getLast some))
          degradations := (Evaluation.run domain.arithmetic (formula.setting store point)
            formula.program).log
          buffer :=
            (machine.values.map domain.arithmetic.output).take buffer.length ++
              buffer.drop machine.values.length }
  fails : ∀ cause, (Evaluation.run domain.arithmetic (formula.setting store point)
      formula.program).result = .error cause →
    ∃ degradations, formula.evaluateInto store domain point buffer none =
      .ok ⟨.error cause, degradations, buffer⟩

/-- A usable formula hands out its stack if the width of its result follows the height of its
program and the operators have the widths that they are meant for. -/
theorem Formula.handsOutStack_of_wellWidthed {formula : Formula} {program : Program}
    (usable : formula.usable = .ok program) (follows : formula.FollowsHeight)
    (widthed : ∀ step ∈ program.steps, step.WellWidthed) (store : Store) (domain : Domain)
    (point buffer : List Number) : formula.HandsOutStack store domain point buffer := by
  obtain rfl := program_of_usable usable
  have balanced : ∀ step ∈ formula.program.steps, step.Balanced :=
    fun step member => (widthed step member).balanced
  have steps : formula.program.steps ≠ [] := by
    intro none
    obtain ⟨error, refused⟩ := formula.usable_eq_error_iff.mpr (.inl none)
    rw [usable] at refused
    cases refused
  have leaves := Program.exists_not_isNegation steps widthed
  have positive : 1 ≤ formula.program.shape.height :=
    (Shape.height_pos_iff formula.program.shape_eq).mpr (.inr leaves)
  have wide : formula.dimension = formula.program.shape.height := by
    rw [follows]
    omega
  have started : formula.evaluateInto store domain point buffer none =
      .ok (Evaluation.evaluate domain (formula.setting store point) formula.program (some buffer)
        (some formula.dimension)) := by
    rw [evaluateInto, usable]
    rfl
  constructor
  · intro supplied
    obtain ⟨machine, ran, _⟩ :=
      (Program.runsToShape_of_balanced supplied balanced positive).finishes
    exact ⟨machine, ran⟩
  · intro machine ran
    have tall := Evaluation.length_values balanced ran
    have some : machine.values ≠ [] := List.ne_nil_of_length_pos (by omega)
    have whole : formula.dimension = machine.values.length := by rw [wide, tall]
    refine ⟨whole, some, ?_⟩
    rw [started, Evaluation.evaluate_whole ran some whole buffer]
  · intro cause ran
    exact ⟨_, started.trans (by rw [Evaluation.evaluate, ran]; rfl)⟩

/-- The width of the result tracks the program. In every formula of a session it is the height of
the program, at least one, unless it was declared later than the latest edit that made it anew, and
after a parse that succeeds it is the height itself. Where it was not declared, a usable formula
whose program came from a source, or has operators of the widths that they are meant for, hands out
its stack. -/
theorem dimension_tracks_program (objects : Nat → Number) (requests : List Request) :
    ((chronicle objects requests).Holds fun formula history =>
      history.latest declared? ≠ some true →
        formula.dimension = max 1 formula.program.shape.height ∧
        ∀ program, formula.usable = .ok program →
          (program.IsCompiled ∨ ∀ step ∈ program.steps, step.WellWidthed) →
            ∀ store domain point buffer, formula.HandsOutStack store domain point buffer) ∧
    ∀ (formula changed : Formula) (source : Source),
      formula.parse source = (changed, none) →
        changed.dimension = changed.program.shape.height := by
  constructor
  · refine (Chronicle.followsHeight objects requests).imp ?_
    intro formula history follows undeclared
    refine ⟨follows undeclared, ?_⟩
    intro program usable parsedOrWidthed
    refine Formula.handsOutStack_of_wellWidthed usable (follows undeclared) ?_
    rcases parsedOrWidthed with ⟨scope, source, compiled, compiles, rfl⟩ | widthed
    · exact (shape_of_compile compiles).2.2
    · exact widthed
  · intro formula changed source parsed
    unfold Formula.parse at parsed
    split at parsed
    case h_1 compiled compiles =>
        cases parsed
        exact (shape_of_compile compiles).1
    case h_2 => cases parsed
    case h_3 => cases parsed

/-- A session that declares another width, and then scales two constants by a third. -/
def scaledConstants : List Request :=
  [.create [], .edit 0 (.setResultType { width := 5 }), .edit 0 (.appendConstant 2),
    .edit 0 (.appendConstant 3), .edit 0 (.appendConstant 4),
    .edit 0 (.appendOperator "vec*scal" 2 1)]

/-- The scaled constants are handed out, and the rest of the buffer stays. -/
theorem dimension_tracks_scaledConstants :
    ∃ formula machine outcome, (chronicle counted scaledConstants).formulas = [formula] ∧
      (Evaluation.run Domain.real.arithmetic (formula.setting (fun _ => .int 0) [])
        formula.program).result = .ok machine ∧
      formula.evaluateInto (fun _ => .int 0) .real [] [.int 7, .int 8, .int 9] none = .ok outcome ∧
      formula.dimension = 2 ∧
      outcome.buffer = machine.values.map Domain.real.arithmetic.output ++ [.int 9] := by
  have holds := (dimension_tracks_program counted scaledConstants).1
  cases holds with
  | cons tracks rest =>
      obtain ⟨_, handsOut⟩ := tracks (by decide)
      have handed := handsOut _ rfl (.inr (by decide)) (fun _ => .int 0) .real []
        [.int 7, .int 8, .int 9]
      have constants : ∀ constant, Step.constant constant ∈
          ([.constant (.ofObject counted 2), .constant (.ofObject counted 3),
            .constant (.ofObject counted 4),
            .vector .scaleRight ⟨2, Nat.two_pos⟩ ⟨1, Nat.one_pos⟩] : List Step) →
          constant.value.isTooLarge = false := by
        simp [counted, Constant.ofObject, Number.isTooLarge]
      obtain ⟨machine, ran⟩ := handed.ends
        ⟨by decide, fun _ member => absurd member List.not_mem_nil, constants, fun _ _ => rfl,
          .real 1e-14, rfl, rfl, rfl⟩
      obtain ⟨wide, some, evaluated⟩ := handed.whole machine ran
      have two : machine.values.length = 2 := Int.ofNat.inj wide.symm
      refine ⟨_, machine, _, rfl, ran, evaluated, rfl, ?_⟩
      simp [two, List.take_of_length_le]

end Formulary
