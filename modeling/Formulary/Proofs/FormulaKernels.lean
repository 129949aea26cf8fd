import Formulary.Proofs.CacheTransparency
import Formulary.Proofs.Dimensions
import Formulary.Proofs.KernelRefinement
import Formulary.Proofs.PointLoop

/-!
# Formulas and their kernels

A formula is evaluated to as many values as its result is wide, taken from the top of the stack. Its
kernel knows nothing of the result type: it goes by the program, and gives the whole stack, or the
value on top where the program leaves one. So the two agree exactly when the width of the result is
the height of the program, which it is unless another width was declared for the program.
-/

namespace Formulary

/-! ## The topmost values -/

/-- A number that leaves the arithmetic of a domain is an entry as it is. -/
theorem Domain.entry_output (domain : Domain) (value : domain.Scalar) :
    domain.entry (domain.arithmetic.output value) = domain.arithmetic.output value := by
  cases domain <;> rfl

/-- The topmost values of a stack, at most as many as asked for, with zeros in the place of those
that are not there. -/
def Domain.topmost (domain : Domain) (width : Nat) (stack : List domain.Scalar) : List Number :=
  (stack.drop (stack.length - width)).map domain.arithmetic.output ++
    List.replicate (width - stack.length) (.int 0)

/-- There are as many as asked for. -/
theorem Domain.length_topmost (domain : Domain) (width : Nat) (stack : List domain.Scalar) :
    (domain.topmost width stack).length = width := by
  simp only [topmost, List.length_append, List.length_map, List.length_drop,
    List.length_replicate]
  omega

/-- What is handed out is the whole stack exactly when as many values are asked for as there are. -/
theorem Domain.topmost_eq_iff (domain : Domain) (width : Nat) (stack : List domain.Scalar) :
    (domain.topmost width stack).map domain.entry = stack.map domain.arithmetic.output ↔
      width = stack.length := by
  constructor
  · intro same
    simpa [length_topmost] using congrArg List.length same
  · rintro rfl
    simp [topmost, entry_output]

namespace Evaluation

variable {domain : Domain} {setting : Setting} {program : Program}

/-- An evaluation into a buffer of zeros leaves the topmost values there. -/
theorem evaluate_zeros {machine : Machine domain.Scalar}
    (ran : (run domain.arithmetic setting program).result = .ok machine) (width : Int) :
    evaluate domain setting program (some (List.replicate width.toNat (.int 0))) (some width) =
      ⟨machine.topValue.map domain.arithmetic.output, (run domain.arithmetic setting program).log,
        domain.topmost width.toNat machine.values⟩ := by
  have count : machine.values.length - min width.toNat machine.values.length =
      machine.values.length - width.toNat := by omega
  have short : ¬width.toNat < machine.values.length - (machine.values.length - width.toNat) := by
    omega
  have rest : width.toNat - (machine.values.length - (machine.values.length - width.toNat)) =
      width.toNat - machine.values.length := by omega
  have whole : machine.values.length - (machine.values.length - width.toNat) ≤ width.toNat := by
    omega
  simp [evaluate, ran, outputCount, copyOut, Domain.topmost, count, short, rest, whole,
    ← List.map_drop, List.take_of_length_le]

end Evaluation

namespace Formula

variable {formula : Formula} {store : Store} {domain : Domain} {program : Program}
  {point : List Number} {value : PointValue}

/-- The value at a point where the evaluation succeeds: the value on top of the stack, or as many of
the topmost values as the result is wide. -/
theorem evaluatePoint_eq_ok
    (evaluated : (formula.evaluatePoint store domain program point).result = .ok value) :
    ∃ machine, (Evaluation.run domain.arithmetic (formula.setting store point)
        program).result = .ok machine ∧
      ∃ some : machine.values ≠ [],
        value =
          if formula.dimension = 1 then
            .scalar (domain.arithmetic.output (machine.values.getLast some))
          else .vector ((domain.topmost formula.dimension.toNat machine.values).map
            domain.entry) := by
  unfold evaluatePoint at evaluated
  split at evaluated
  case isTrue single =>
      obtain ⟨top, found, rfl⟩ := Outcome.map_eq_ok_iff.mp evaluated
      obtain ⟨machine, ran, some, rfl⟩ := Evaluation.top_eq_ok_iff.mp found
      exact ⟨machine, ran, some, by rw [if_pos single]⟩
  case isFalse several =>
      obtain ⟨top, found, rfl⟩ := Outcome.map_eq_ok_iff.mp evaluated
      cases ran : (Evaluation.run domain.arithmetic (formula.setting store point)
          program).result with
      | error cause => simp [Evaluation.evaluate, ran] at found
      | ok machine =>
          rw [Evaluation.evaluate_zeros ran] at found ⊢
          have some : machine.values ≠ [] := by
            intro none
            simp [Machine.topValue, none, Except.map] at found
          exact ⟨machine, rfl, some, by rw [if_neg several]⟩

end Formula

/-- Balanced steps leave a stack of the height that the shape foretells. -/
theorem Evaluation.length_values {domain : Domain} {setting : Setting} {program : Program}
    {machine : Machine domain.Scalar} (balanced : ∀ step ∈ program.steps, step.Balanced)
    (ran : (run domain.arithmetic setting program).result = .ok machine) :
    machine.values.length = program.shape.height := by
  have room : program.shape.depth ≤
      (Machine.start domain.arithmetic program.shape.depth).memory.size := by
    simp [Machine.start]
  have related := execAll_related_balanced domain.arithmetic setting 0 balanced program.shape_eq
    (Machine.start_carries _ _) rfl room
  obtain ⟨values, _, ⟨_, carries⟩, tall⟩ := related.result_of_left ran
  rw [carries.values_eq, tall]

/-! ## Agreement -/

/-- The output of a kernel as the value at a point. -/
def Kernel.Output.pointValue : Output Number → Formula.PointValue
  | .scalar value => .scalar value
  | .vector values => .vector values

namespace Formula

/-- The kernel of a program in the domain of an evaluation, with the tolerance of the formula. -/
def kernel (formula : Formula) (domain : Domain) (program : Program) : Kernel :=
  ⟨program, domain, formula.tolerance.value⟩

variable {formula : Formula} {store : Store} {domain : Domain} {program : Program}
  {point : List Number} {value : PointValue}

/-- A program of balanced steps that gives a value at a point leaves one at least. -/
theorem one_le_height (balanced : ∀ step ∈ program.steps, step.Balanced)
    (evaluated : (formula.evaluatePoint store domain program point).result = .ok value) :
    1 ≤ program.shape.height := by
  obtain ⟨machine, ran, some, _⟩ := evaluatePoint_eq_ok evaluated
  rw [← Evaluation.length_values balanced ran]
  exact List.length_pos_of_ne_nil some

/-- A formula is used through its own program. -/
theorem program_of_usable (usable : formula.usable = .ok program) : formula.program = program := by
  unfold Formula.usable at usable
  split at usable
  · cases usable
  · split at usable
    · cases usable
    · exact Except.ok.inj usable

/-- A kernel that may be compared gives the value at a point exactly when the result is as wide as
the program is high. -/
theorem kernel_eq_iff (balanced : ∀ step ∈ program.steps, step.Balanced)
    (comparable : (formula.kernel domain program).Comparable store point)
    (evaluated : (formula.evaluatePoint store domain program point).result = .ok value) :
    ((formula.kernel domain program).evaluate store point).result.map Kernel.Output.pointValue =
        .ok value ↔
      formula.dimension = program.shape.height := by
  obtain ⟨machine, ran, some, rfl⟩ := evaluatePoint_eq_ok evaluated
  have tall := Evaluation.length_values balanced ran
  have filled := List.length_pos_of_ne_nil some
  rw [Kernel.evaluate_of_comparable comparable ran some]
  show Except.ok _ = Except.ok _ ↔ _
  rw [Except.ok.injEq]
  simp only [kernel, Kernel.Output.map]
  by_cases one : program.shape.height = 1
  · by_cases single : formula.dimension = 1
    · simp [one, single, Kernel.Output.pointValue]
    · simp only [one, single, if_true, if_false, Kernel.Output.pointValue]
      exact ⟨nofun, fun wide => absurd wide single⟩
  · by_cases single : formula.dimension = 1
    · simp only [one, single, if_true, if_false, Kernel.Output.pointValue]
      exact ⟨nofun, fun high => absurd (Int.ofNat.inj high.symm) one⟩
    · simp only [one, single, if_false, Kernel.Output.pointValue, PointValue.vector.injEq]
      rw [eq_comm, domain.topmost_eq_iff, tall]
      omega

/-- The kernel that an empty cache gives for a usable formula is the kernel of its program. -/
theorem lower_empty (domain : Domain) (usable : formula.usable = .ok program) :
    ∃ number cache, formula.lower domain {} = .ok (number, cache) ∧
      cache.kernel? number = some (formula.kernel domain program) := by
  have asked : formula.lower domain {} =
      .ok (KernelCache.lower {} ⟨program, domain, formula.tolerance⟩) := by
    rw [lower, kernelKey, usable]
    rfl
  exact ⟨_, _, asked, rfl⟩

end Formula

/-- The kernel of a formula of a session agrees with the formula exactly where the result is as wide
as the program is high, and it is so unless a width was declared for the program. -/
theorem lowered_kernel_eq_iff (objects : Nat → Number) (requests : List Request) :
    (chronicle objects requests).Holds fun formula history =>
      ∀ store domain point program outcome value, formula.usable = .ok program →
        (∀ step ∈ program.steps, step.Balanced) →
        (formula.kernel domain program).Comparable store point →
        formula.evaluatePoints store domain [point] = .ok outcome →
        outcome.values = .ok [value] →
        ∃ number cache kernel, formula.lower domain {} = .ok (number, cache) ∧
          cache.kernel? number = some kernel ∧
          ((kernel.evaluate store point).result.map Kernel.Output.pointValue = .ok value ↔
            formula.dimension = program.shape.height) ∧
          (history.latest declared? ≠ some true → formula.dimension = program.shape.height) := by
  refine (Chronicle.followsHeight objects requests).imp fun formula history follows => ?_
  intro store domain point program outcome value usable balanced comparable started given
  have evaluated : (formula.evaluatePoint store domain program point).result = .ok value := by
    simp only [Formula.evaluatePoints, usable, Outcome.ok_bind, Outcome.pure_eq_ok,
      Except.ok.injEq] at started
    rw [← started, formula.runPoints_singleton, Outcome.map_eq_ok_iff] at given
    obtain ⟨found, evaluated, same⟩ := given
    rwa [List.singleton_inj.mp same] at evaluated
  obtain ⟨number, cache, lowered, found⟩ := Formula.lower_empty domain usable
  refine ⟨number, cache, _, lowered, found,
    Formula.kernel_eq_iff balanced comparable evaluated, fun undeclared => ?_⟩
  have high := follows undeclared
  have some := Formula.one_le_height balanced evaluated
  rw [Formula.FollowsHeight, Formula.program_of_usable usable] at high
  omega

/-- A session that appends three constants, whose objects are given by number. -/
def threeConstants : List Request :=
  [.create [], .edit 0 (.appendConstant 1), .edit 0 (.appendConstant 2),
    .edit 0 (.appendConstant 3)]

/-- The number of an object as a double. -/
def counted (object : Nat) : Number := .real (Float.ofNat object)

/-- The kernel of three constants. -/
def Kernel.ofThree : Kernel where
  program :=
    { steps := [1, 2, 3].map fun object => .constant (.ofObject counted object)
      shape := ⟨3, 3, false, 0⟩
      shape_eq := rfl }
  domain := .real
  tolerance := defaultTolerance.value

/-- Nothing but the three constants is read, so the kernel may be compared. -/
theorem Kernel.comparable_ofThree : Kernel.ofThree.Comparable (fun _ => .int 0) [] := by
  have occurring : ofThree.operations (fun _ => .int 0) [] =
      [.load (counted 1), .load (counted 2), .load (counted 3)] := rfl
  refine ⟨nofun, ?_⟩
  rw [occurring]
  constructor
  · simp only [List.forall_mem_cons]
    exact ⟨rfl, rfl, rfl, nofun⟩
  · simp

/-- Three constants leave three values, and the kernel of the formula gives them too. -/
theorem lowered_kernel_eq_threeConstants :
    ∃ formula number cache kernel,
      (chronicle counted threeConstants).formulas = [formula] ∧
      formula.lower .real {} = .ok (number, cache) ∧ cache.kernel? number = some kernel ∧
      (kernel.evaluate (fun _ => .int 0) []).result.map Kernel.Output.pointValue =
        .ok (.vector [counted 1, counted 2, counted 3]) := by
  have holds := lowered_kernel_eq_iff counted threeConstants
  cases holds with
  | cons agrees rest =>
      obtain ⟨number, cache, kernel, lowered, found, same, high⟩ :=
        agrees (fun _ => .int 0) .real [] Kernel.ofThree.program _
          (.vector [counted 1, counted 2, counted 3]) rfl (by decide) Kernel.comparable_ofThree
          rfl rfl
      exact ⟨_, number, cache, kernel, rfl, lowered, found, same.mpr (high (by decide))⟩

/-- Where a width of two is declared for three constants, the formula gives the topmost two values,
but its kernel all of them. -/
theorem lowered_kernel_ne_narrowed :
    ∃ formula program outcome value number cache kernel,
      (chronicle counted
        (threeConstants ++ [.edit 0 (.setResultType { width := 2 })])).formulas = [formula] ∧
      formula.usable = .ok program ∧ formula.dimension = 2 ∧
      (formula.kernel .real program).Comparable (fun _ => .int 0) [] ∧
      formula.evaluatePoints (fun _ => .int 0) .real [[]] = .ok outcome ∧
      outcome.values = .ok [value] ∧ value = .vector [counted 2, counted 3] ∧
      formula.lower .real {} = .ok (number, cache) ∧ cache.kernel? number = some kernel ∧
      (kernel.evaluate (fun _ => .int 0) []).result =
        .ok (.vector [counted 1, counted 2, counted 3]) ∧
      (kernel.evaluate (fun _ => .int 0) []).result.map Kernel.Output.pointValue ≠ .ok value := by
  refine ⟨_, _, _, _, _, _, _, rfl, rfl, rfl, Kernel.comparable_ofThree, rfl, rfl, rfl, rfl, rfl,
    rfl, ?_⟩
  intro same
  have lengths : 3 = 2 :=
    congrArg List.length (Formula.PointValue.vector.inj (Except.ok.inj same))
  exact absurd lengths (by decide)

end Formulary
