import Formulary.Proofs.KernelRefinement
import Formulary.Proofs.PointLoop
import Formulary.Proofs.RealData
import Mathlib.Data.List.TakeDrop

/-!
# Output buffers

An evaluation touches its buffer after the last step and not before, so a run that fails leaves the
buffer alone. After a run that ends, the values that were asked for are copied from the places just
below the top of the work area, upwards. The places are counted from the top whatever the shape of
the program foretold: programs that leave more values than their shape says are not excluded.

A buffer that is too short is filled before the evaluation fails. This is the one fault that comes
with writing.
-/

namespace Formulary

namespace Evaluation

/-- A buffer into which values were copied, with what lies behind them. -/
theorem copyOut_snd (values buffer : List Number) :
    (copyOut values buffer).2 = values.take buffer.length ++ buffer.drop values.length := by
  rw [copyOut]
  split <;> rfl

/-- A buffer into which values were copied starts with them, as far as it reaches. -/
theorem copyOut_written {values buffer : List Number} {place : Nat} (inside : place < buffer.length)
    (copied : place < values.length) :
    (copyOut values buffer).2[place]? = values[place]? := by
  rw [copyOut_snd, List.getElem?_append_left (by rw [List.length_take]; omega),
    List.getElem?_take_of_lt inside]

/-- Copying does not touch what lies behind the values. -/
theorem copyOut_kept {values buffer : List Number} {place : Nat} (behind : values.length ≤ place) :
    (copyOut values buffer).2[place]? = buffer[place]? := by
  rw [copyOut_snd]
  by_cases inside : place < buffer.length
  · have copied : (values.take buffer.length).length = values.length := by
      rw [List.length_take]
      omega
    rw [List.getElem?_append_right (by omega), copied, List.getElem?_drop,
      Nat.add_sub_of_le behind]
  · rw [List.getElem?_eq_none (Nat.le_of_not_lt inside), List.getElem?_eq_none]
    rw [List.length_append, List.length_take, List.length_drop]
    omega

/-- Copying does not change the length of a buffer. -/
theorem length_copyOut (values buffer : List Number) :
    (copyOut values buffer).2.length = buffer.length := by
  rw [copyOut_snd, List.length_append, List.length_take, List.length_drop]
  omega

variable {α : Type} {domain : Domain} {setting : Setting} {program : Program}

/-- A run that ends leaves a value in every place below the top. -/
theorem length_values_of_run {machine : Machine domain.Scalar}
    (ran : (run domain.arithmetic setting program).result = .ok machine) :
    machine.values.length = machine.top := by
  obtain ⟨values, _, _, carries, _⟩ :=
    execAll_succeeds_on_list domain.arithmetic setting program.shape_eq
      (Machine.start_carries _ _) (Nat.le_refl 0) ran
  rw [carries.values_eq, carries.top_eq]

/-- The number of values to hand out is the width that was asked for or the height of the stack,
whichever is less, and none at all for a width below zero. -/
theorem outputCount_eq (width : Option Int) (height : Nat) :
    (outputCount width height : Int) = max 0 (width.elim (height : Int) (min · height)) := by
  cases width with
  | none => simp [outputCount]
  | some asked =>
      simp only [outputCount, Option.elim]
      omega

/-- The buffer after a run that ended. -/
theorem buffer_of_run {machine : Machine domain.Scalar}
    (ran : (run domain.arithmetic setting program).result = .ok machine) (buffer : List Number)
    (width : Option Int) :
    (evaluate domain setting program (some buffer) width).buffer =
      (copyOut ((machine.values.map domain.arithmetic.output).drop
        (machine.top - outputCount width machine.top)) buffer).2 := by
  simp only [evaluate, ran, List.length_map, length_values_of_run ran]
  split <;> rfl

/-- The outcome of an evaluation after a run that ended, into a buffer for which so many values were
asked: they are written in the order of their places, what lies behind them is kept, and the top of
the stack is returned unless the buffer was too short. -/
structure Outcome.Delivers (outcome : Outcome) (arithmetic : Arithmetic α) (machine : Machine α)
    (count : Nat) (buffer : List Number) : Prop where
  length_eq : outcome.buffer.length = buffer.length
  written : ∀ place < count, place < buffer.length →
    ∃ value, machine.memory[machine.top - count + place]? = some value ∧
      outcome.buffer[place]? = some (arithmetic.output value)
  kept : ∀ place, count ≤ place → outcome.buffer[place]? = buffer[place]?
  top_eq : outcome.top =
    if buffer.length < count then .error .shortOutput
    else machine.topValue.map arithmetic.output

/-- An evaluation whose run ends delivers the topmost values. -/
theorem evaluate_delivers {machine : Machine domain.Scalar}
    (ran : (run domain.arithmetic setting program).result = .ok machine) (buffer : List Number)
    (width : Option Int) :
    (evaluate domain setting program (some buffer) width).Delivers domain.arithmetic machine
      (outputCount width machine.top) buffer := by
  have tall := length_values_of_run ran
  have within := outputCount_le width machine.top
  have handed : ((machine.values.map domain.arithmetic.output).drop
      (machine.top - outputCount width machine.top)).length = outputCount width machine.top := by
    rw [List.length_drop, List.length_map, tall]
    omega
  refine ⟨?_, ?_, ?_, ?_⟩
  · rw [buffer_of_run ran, length_copyOut]
  · intro place inside room
    have below : machine.top - outputCount width machine.top + place < machine.values.length := by
      omega
    refine ⟨machine.values[machine.top - outputCount width machine.top + place], ?_, ?_⟩
    · rw [← List.getElem?_eq_getElem below, Machine.values, List.getElem?_take_of_lt (by omega),
        Array.getElem?_toList]
    · rw [buffer_of_run ran, copyOut_written room (by omega), List.getElem?_drop,
        List.getElem?_map, List.getElem?_eq_getElem below, Option.map_some]
  · intro place behind
    rw [buffer_of_run ran, copyOut_kept (by omega)]
  · rw [evaluate_top domain ran tall]
    simp

/-- An evaluation whose run fails leaves its buffer as it is. -/
theorem buffer_of_error {cause : Fault}
    (ran : (run domain.arithmetic setting program).result = .error cause) (buffer : List Number)
    (width : Option Int) :
    (evaluate domain setting program (some buffer) width).buffer = buffer := by
  simp [evaluate, ran]

variable (entry : Number) (rest : List Number)

/-- A value on top of the stack is what is written into a buffer when one value is asked for. -/
theorem evaluate_one_of_ok {top : Number}
    (found : (evaluate domain setting program none none).top = .ok top) :
    (evaluate domain setting program (some (entry :: rest)) (some 1)).top = .ok top ∧
      (evaluate domain setting program (some (entry :: rest)) (some 1)).buffer = top :: rest := by
  obtain ⟨machine, ran, filled, rfl⟩ := top_eq_ok_iff.mp found
  have tall := length_values_of_run ran
  have positive := List.length_pos_of_ne_nil filled
  have count : outputCount (some 1) machine.top = 1 := by
    simp only [outputCount]
    omega
  constructor
  · rw [evaluate_top domain ran tall, count, if_neg (by simp), Machine.topValue,
      List.getLast?_eq_getLast_of_ne_nil filled]
    rfl
  · rw [buffer_of_run ran, count, ← tall, ← List.map_drop, List.drop_length_sub_one filled,
      copyOut_snd]
    simp

/-- Where there is no value on top of the stack, nothing is written when one value is asked for. -/
theorem evaluate_one_of_error {cause : Fault}
    (failed : (evaluate domain setting program none none).top = .error cause) :
    (evaluate domain setting program (some (entry :: rest)) (some 1)).top = .error cause ∧
      (evaluate domain setting program (some (entry :: rest)) (some 1)).buffer = entry :: rest := by
  cases ran : (run domain.arithmetic setting program).result with
  | error found =>
      rw [evaluate_top_of_error domain ran] at failed
      exact ⟨(evaluate_top_of_error domain ran _ _).trans failed, buffer_of_error ran _ _⟩
  | ok machine =>
      have tall := length_values_of_run ran
      have empty : machine.values = [] := by
        by_contra filled
        rw [top_eq_ok_iff.mpr ⟨machine, ran, filled, rfl⟩] at failed
        cases failed
      rw [empty, List.length_nil] at tall
      rw [evaluate_top domain ran rfl none none] at failed
      constructor
      · rw [evaluate_top domain ran rfl, empty]
        simpa [outputCount] using failed
      · rw [buffer_of_run ran, empty, copyOut_snd]
        simp

end Evaluation

/-! ## One value three times -/

/-- A value that was evaluated alone, into a buffer and as that of the only one of several points:
it is the same value, or the same fault, in all of them. -/
structure Formula.SameValue (direct into : Evaluation.Outcome) (points : PointsOutcome Unit)
    (entry : Number) (rest : List Number) : Prop where
  found : ∀ value, direct.top = .ok value →
    into.top = .ok value ∧ into.buffer = value :: rest ∧ points.values = .ok [.scalar value]
  failed : ∀ cause, direct.top = .error cause →
    into.top = .error cause ∧ into.buffer = entry :: rest ∧ points.values = .error cause

namespace Formula

variable {formula : Formula} {program : Program}

/-- A scalar formula is evaluated to the value that it writes into a buffer and that it gives at a
single point. -/
theorem sameValue_of_usableScalar (usable : formula.usableScalar = .ok program) (store : Store)
    (domain : Domain) (point : List Number) (entry : Number) (rest : List Number) :
    ∃ direct into points,
      formula.evaluate store domain point = .ok direct ∧
      formula.evaluateInto store domain point (entry :: rest) none = .ok into ∧
      formula.evaluatePoints store domain [point] = .ok points ∧
      SameValue direct into points entry rest := by
  have direct : formula.evaluate store domain point =
      .ok (Evaluation.evaluate domain (formula.setting store point) program none none) := by
    rw [evaluate, usable]
    rfl
  obtain ⟨found, used, scalar⟩ := Outcome.bind_eq_ok_iff.mp usable
  split at scalar
  case isFalse => cases scalar
  case isTrue one =>
      cases scalar
      have points : formula.evaluatePoints store domain [point] =
          .ok (formula.runPoints store domain program silentHandler "" [point] ()) := by
        simp [evaluatePoints, used, bind, Except.bind, pure, Except.pure]
      have into : formula.evaluateInto store domain point (entry :: rest) none =
          .ok (Evaluation.evaluate domain (formula.setting store point) program
            (some (entry :: rest)) (some 1)) := by
        rw [evaluateInto, used, ← one]
        rfl
      have alone : (formula.runPoints store domain program silentHandler "" [point] ()).values =
          (Evaluation.evaluate domain (formula.setting store point) program none none).top.map
            fun value => [.scalar value] := by
        rw [runPoints_singleton, evaluatePoint, if_pos one]
        dsimp only
        cases (Evaluation.evaluate domain (formula.setting store point) program none none).top <;>
          rfl
      refine ⟨_, _, _, direct, into, points, ?_, ?_⟩
      · intro value evaluated
        have written := Evaluation.evaluate_one_of_ok entry rest evaluated
        rw [evaluated] at alone
        exact ⟨written.1, written.2, alone⟩
      · intro cause evaluated
        have kept := Evaluation.evaluate_one_of_error entry rest evaluated
        rw [evaluated] at alone
        exact ⟨kept.1, kept.2, alone⟩

end Formula

/-- Output buffers are written exactly, and only when the steps succeed. A run that fails leaves the
buffer as it was. After a run that ends, the topmost values, as many as were asked for and no more
than there are, stand at the start of the buffer in the order of their places, and the rest of the
buffer and its length are kept; a buffer that is too short is filled before the evaluation fails.
And a scalar formula has one value, whether it is evaluated alone, into a buffer or at a point. -/
theorem output_delivered_on_success (domain : Domain) (setting : Setting) (program : Program)
    (buffer : List Number) (width : Option Int) :
    (∀ cause, (Evaluation.run domain.arithmetic setting program).result = .error cause →
      (Evaluation.evaluate domain setting program (some buffer) width).top = .error cause ∧
      (Evaluation.evaluate domain setting program (some buffer) width).buffer = buffer) ∧
    (∀ machine, (Evaluation.run domain.arithmetic setting program).result = .ok machine →
      ∃ count : Nat, (count : Int) = max 0 (width.elim (machine.top : Int) (min · machine.top)) ∧
        (Evaluation.evaluate domain setting program (some buffer) width).Delivers
          domain.arithmetic machine count buffer) ∧
    ∀ (formula : Formula) (store : Store) (point : List Number) (entry : Number)
      (rest : List Number), formula.usableScalar = .ok program →
      ∃ direct into points,
        formula.evaluate store domain point = .ok direct ∧
        formula.evaluateInto store domain point (entry :: rest) none = .ok into ∧
        formula.evaluatePoints store domain [point] = .ok points ∧
        Formula.SameValue direct into points entry rest := by
  refine ⟨fun cause failed => ⟨?_, ?_⟩, fun machine ran => ?_, fun formula store point entry rest
    usable => formula.sameValue_of_usableScalar usable store domain point entry rest⟩
  · exact Evaluation.evaluate_top_of_error domain failed _ _
  · exact Evaluation.buffer_of_error failed _ _
  · exact ⟨Evaluation.outputCount width machine.top, Evaluation.outputCount_eq width machine.top,
      Evaluation.evaluate_delivers ran buffer width⟩

/-- The first slot of no point leaves a buffer alone. At a point it is delivered, and a formula that
reads it has it as its value. -/
theorem output_delivered_firstSlot :
    (Evaluation.evaluate .real ⟨[], fun _ => .int 0, none⟩ .firstSlot (some [.int 4]) none).buffer =
      [.int 4] ∧
    (∃ machine, (Evaluation.evaluate .real ⟨[.real 1.5], fun _ => .int 0, none⟩ .firstSlot
      (some [.int 4, .int 5]) (some 1)).Delivers Domain.real.arithmetic machine 1
        [.int 4, .int 5]) ∧
    ∃ direct into points,
      ({ program := .firstSlot } : Formula).evaluate (fun _ => .int 0) .real [.real 1.5] =
        .ok direct ∧
      Formula.SameValue direct into points (.int 4) [] := by
  refine ⟨?_, ?_, ?_⟩
  · exact ((output_delivered_on_success .real _ _ [.int 4] none).1 .shortInput rfl).2
  · obtain ⟨count, counted, delivers⟩ :=
      (output_delivered_on_success .real ⟨[.real 1.5], fun _ => .int 0, none⟩ .firstSlot
        [.int 4, .int 5] (some 1)).2.1 _ rfl
    obtain rfl : count = 1 := Int.ofNat.inj counted
    exact ⟨_, delivers⟩
  · obtain ⟨direct, into, points, evaluated, -, -, same⟩ :=
      (output_delivered_on_success .real ⟨[], fun _ => .int 0, none⟩ .firstSlot [] none).2.2
        { program := .firstSlot } (fun _ => .int 0) [.real 1.5] (.int 4) [] rfl
    exact ⟨direct, into, points, evaluated, same⟩

/-- Three values are asked for and the buffer has two entries: they are written before the
evaluation fails. -/
example :
    let program : Program :=
      { steps := [.constant ⟨.real 1, 0⟩, .constant ⟨.real 2, 0⟩, .constant ⟨.real 3, 0⟩]
        shape := ⟨3, 3, false, 0⟩
        shape_eq := rfl }
    let outcome := Evaluation.evaluate .real ⟨[], fun _ => .int 0, none⟩ program
      (some [.int 4, .int 5]) none
    outcome.top = .error .shortOutput ∧ outcome.buffer = [.real 1, .real 2] := ⟨rfl, rfl⟩

end Formulary
