import Formulary.Formula
import Formulary.Proofs.Dimensions
import Formulary.Proofs.KernelRefinement

/-!
# What a program reads

A program declares what it reads: the slots and cells of its steps, and in its shape the highest
slot, and whether it reads anything at all. A run meets nothing else of a point or of a store. Two
settings that agree there cannot be told apart by any evaluation.

The highest slot is exact for a compiled formula. No operator of a formula is passed over, so the
first argument that the point is too short for ends the run, unless something else does so before;
and where the point is long enough, no index of the run is out of range.
-/

namespace Formulary

variable {α : Type}

/-! ## Settings that agree where a program reads -/

namespace Setting

/-- Two settings agree on what a step reads. -/
def AgreeAt (first second : Setting) : Step → Prop
  | .argument slot => first.inputs[slot.val - 1]? = second.inputs[slot.val - 1]?
  | .external cell => first.store cell = second.store cell
  | _ => True

/-- Two settings agree on what a program declares that it reads, and have the same tolerance. -/
structure AgreeOn (first second : Setting) (program : Program) : Prop where
  slots : ∀ slot, .argument slot ∈ program.steps →
    first.inputs[slot.val - 1]? = second.inputs[slot.val - 1]?
  cells : ∀ cell ∈ program.cells, first.store cell = second.store cell
  tolerance : first.tolerance = second.tolerance

variable {first second : Setting} {program : Program}

theorem AgreeOn.agreeAt (agree : first.AgreeOn second program) :
    ∀ step ∈ program.steps, first.AgreeAt second step := by
  intro step member
  cases step with
  | argument slot => exact agree.slots slot member
  | external cell =>
      exact agree.cells cell (Program.mem_foldl_noteCell_iff.mpr (.inr member))
  | _ => trivial

end Setting

namespace Evaluation

variable {arithmetic : Arithmetic α} {first second : Setting}

/-- A step does the same in settings that agree on what it reads. -/
theorem exec_eq_of_agreeAt (tolerance : first.tolerance = second.tolerance) (index : Nat)
    {step : Step} (agree : first.AgreeAt second step) (machine : Machine α) :
    exec arithmetic first index step machine = exec arithmetic second index step machine := by
  cases step with
  | argument slot =>
      have same : first.inputs[slot.val - 1]? = second.inputs[slot.val - 1]? := agree
      simp only [exec, input, same]
  | external cell =>
      have same : first.store cell = second.store cell := agree
      simp only [exec, same]
  | operator operator => cases operator <;> simp only [exec, tolerance]
  | _ => rfl

/-- Steps do the same in settings that agree on what they read. -/
theorem execAll_eq_of_agreeAt (tolerance : first.tolerance = second.tolerance) (index : Nat)
    {steps : List Step} (agree : ∀ step ∈ steps, first.AgreeAt second step)
    (machine : Machine α) :
    execAll arithmetic first index steps machine =
      execAll arithmetic second index steps machine := by
  induction steps generalizing index machine with
  | nil => rfl
  | cons step rest inductionHypothesis =>
      rw [List.forall_mem_cons] at agree
      simp only [execAll, exec_eq_of_agreeAt tolerance index agree.1,
        inductionHypothesis (index + 1) agree.2]

/-- An evaluation has the same outcome in settings that agree on what the program reads. -/
theorem evaluate_eq_of_agreeOn {program : Program} (agree : first.AgreeOn second program)
    (domain : Domain) (buffer : Option (List Number)) (width : Option Int) :
    evaluate domain first program buffer width = evaluate domain second program buffer width := by
  have same : run domain.arithmetic first program = run domain.arithmetic second program :=
    execAll_eq_of_agreeAt agree.tolerance 0 agree.agreeAt _
  simp only [evaluate, same]

end Evaluation

/-! ## What a shape tells about reading -/

/-- Whether a step reads a slot or a cell. -/
def Step.reads : Step → Bool
  | argument _ | external _ => true
  | _ => false

namespace Shape

variable {index : Nat} {shape next final : Shape} {step : Step} {steps : List Step}

theorem extend_usesInputs (extended : extend index shape step = .ok next) :
    next.usesInputs = (shape.usesInputs || step.reads) := by
  unfold extend at extended
  split at extended
  case isTrue => cases extended
  case isFalse => cases step <;> cases extended <;> simp [Step.reads]

/-- Something is read when a step reads it, or when something was read before. -/
theorem extendAll_usesInputs (extended : extendAll index shape steps = .ok final) :
    final.usesInputs = (shape.usesInputs || steps.any Step.reads) := by
  induction steps generalizing index shape with
  | nil =>
      cases extended
      simp
  | cons step rest inductionHypothesis =>
      obtain ⟨next, extendedFirst, extendedRest⟩ := extendAll_cons_iff.mp extended
      rw [inductionHypothesis extendedRest, extend_usesInputs extendedFirst, List.any_cons,
        Bool.or_assoc]

/-- The argument count of a shape is zero, or a step reads the slot of this number. -/
theorem exists_slot (extended : extendAll index shape steps = .ok final)
    (more : shape.argumentCount < final.argumentCount) :
    ∃ slot, .argument slot ∈ steps ∧ slot.val = final.argumentCount := by
  induction steps generalizing index shape with
  | nil =>
      cases extended
      omega
  | cons step rest inductionHypothesis =>
      obtain ⟨next, extendedFirst, extendedRest⟩ := extendAll_cons_iff.mp extended
      have count := (extend_follows extendedFirst).argumentCount_eq
      by_cases later : next.argumentCount < final.argumentCount
      · obtain ⟨slot, member, exact⟩ := inductionHypothesis extendedRest later
        exact ⟨slot, List.mem_cons_of_mem _ member, exact⟩
      · have reached := (extendAll_grows extendedRest).2.1
        cases step with
        | argument slot =>
            refine ⟨slot, List.mem_cons_self, ?_⟩
            simp only [Step.slot] at count
            omega
        | _ =>
            simp only [Step.slot] at count
            omega

end Shape

/-- Any two settings with the same tolerance agree on a program that reads nothing. -/
theorem Setting.agreeOn_of_readsNothing {program : Program}
    (nothing : program.shape.usesInputs = false) {first second : Setting}
    (tolerance : first.tolerance = second.tolerance) : first.AgreeOn second program := by
  have reads := Shape.extendAll_usesInputs program.shape_eq
  rw [nothing, Bool.false_or] at reads
  have none := List.any_eq_false.mp reads.symm
  refine ⟨?_, ?_, tolerance⟩
  · intro slot member
    exact absurd rfl (none _ member)
  · intro cell member
    have used : .external cell ∈ program.steps := by
      simpa [Program.cells, Program.mem_foldl_noteCell_iff] using member
    exact absurd rfl (none _ used)

/-! ## Points that are too short -/

/-- Whether a fault is that of an index out of range. -/
def Fault.isIndex : Fault → Bool
  | .shortInput | .stackOverrun | .emptyStack | .shortOutput => true
  | _ => false

namespace Evaluation

variable {domain : Domain} {setting : Setting} {bound : Number}

/-- Where everything else is there, the first slot that a point does not have ends the run. -/
theorem execAllList_short (tolerance : setting.tolerance = some bound) (decides : bound.Decides)
    (index : Nat) {steps : List Step} {first : Nat} {shape final : Shape}
    {stack : List domain.Scalar} (extended : Shape.extendAll first shape steps = .ok final)
    (tall : shape.height ≤ stack.length)
    (provided : ∀ step ∈ steps, setting.Provides domain step ∨
      ∃ slot, step = .argument slot ∧ setting.inputs[slot.val - 1]? = none)
    {missing : Positive} (member : .argument missing ∈ steps)
    (short : setting.inputs[missing.val - 1]? = none) :
    (execAllList domain.arithmetic setting index steps stack).result = .error .shortInput := by
  induction steps generalizing index first shape stack with
  | nil => cases member
  | cons step rest inductionHypothesis =>
      obtain ⟨reached, extendedFirst, extendedRest⟩ := Shape.extendAll_cons_iff.mp extended
      have follows := Shape.extend_follows extendedFirst
      have enough := Nat.le_trans follows.enough tall
      rw [List.forall_mem_cons] at provided
      obtain ⟨here, later⟩ := provided
      rcases here with here | ⟨slot, rfl, absent⟩
      · obtain ⟨next, ran⟩ := execList_succeeds tolerance decides index here enough
        have behind : .argument missing ∈ rest := by
          rcases List.mem_cons.mp member with rfl | behind
          · obtain ⟨number, found, _⟩ := here
            rw [short] at found
            cases found
          · exact behind
        have fails := inductionHypothesis (index + 1) extendedRest
          (height_le_of_execList follows tall ran) later behind
        simp only [execAllList, Logged.bind_eq, Logged.bind, ran, fails]
      · simp [execAllList, execList, answer, input, absent, Logged.bind, Logged.ofExcept]

section Points

variable {scope : Scope} {source : Source} {compiled : Compiled}
  (compiles : compile scope source = .ok compiled) {point : List Float} {store : Store}
  (constants : ∀ constant, .constant constant ∈ compiled.program.steps →
    constant.value.isTooLarge = false)
  (loads : ∀ cell, .external cell ∈ compiled.program.steps → (store cell).isTooLarge = false)
  (decides : bound.Decides)

include constants loads

/-- A list of doubles provides every step with what it reads, except the slots behind its end. -/
theorem provides_or_absent (step : Step) (member : step ∈ compiled.program.steps) :
    Setting.Provides ⟨point.map .real, store, some bound⟩ domain step ∨
      ∃ slot, step = .argument slot ∧ (point.map Number.real)[slot.val - 1]? = none := by
  cases step with
  | constant constant => exact .inl (constants constant member)
  | external cell => exact .inl (loads cell member)
  | argument slot =>
      cases found : (point.map Number.real)[slot.val - 1]? with
      | none => exact .inr ⟨slot, rfl, found⟩
      | some number =>
          obtain ⟨value, _, rfl⟩ := List.mem_map.mp (List.mem_of_getElem? found)
          exact .inl ⟨.real value, found, rfl, fun _ => rfl⟩
  | _ => exact .inl trivial

include compiles decides

/-- A compiled program that is not given enough entries ends because of that. -/
theorem top_of_short (short : point.length < compiled.program.shape.argumentCount) :
    (evaluate domain ⟨point.map .real, store, some bound⟩ compiled.program none none).top =
      .error .shortInput := by
  obtain ⟨width, height, widthed⟩ := shape_of_compile compiles
  have balanced : ∀ step ∈ compiled.program.steps, step.Balanced :=
    fun step member => (widthed step member).balanced
  obtain ⟨missing, member, exact⟩ := Shape.exists_slot compiled.program.shape_eq
    (Nat.lt_of_le_of_lt (Nat.zero_le _) short)
  have absent : (point.map Number.real)[missing.val - 1]? = none := by
    rw [List.getElem?_eq_none_iff, List.length_map]
    omega
  have room : compiled.program.shape.depth ≤
      (Machine.start domain.arithmetic compiled.program.shape.depth).memory.size := by
    simp [Machine.start]
  have related := execAll_related_balanced domain.arithmetic
    ⟨point.map .real, store, some bound⟩ 0 balanced compiled.program.shape_eq
    (Machine.start_carries _ _) rfl room
  have fails : (run domain.arithmetic ⟨point.map .real, store, some bound⟩
      compiled.program).result.map Machine.values = .error .shortInput := by
    rw [← execAllList_short rfl decides 0 compiled.program.shape_eq (Nat.zero_le _)
      (provides_or_absent constants loads) member absent]
    exact related.map_result_eq fun _ _ carried => carried.1.2.values_eq
  cases ran : (run domain.arithmetic ⟨point.map .real, store, some bound⟩
      compiled.program).result with
  | error cause =>
      rw [ran] at fails
      cases fails
      simp only [evaluate, ran]
  | ok machine =>
      rw [ran] at fails
      cases fails

/-- A compiled program that is given enough entries has a value. -/
theorem top_of_enough (enough : compiled.program.shape.argumentCount ≤ point.length) :
    ∃ value, (evaluate domain ⟨point.map .real, store, some bound⟩ compiled.program none none).top =
      .ok value := by
  have supplied : Setting.Supplies ⟨point.map .real, store, some bound⟩ domain
      compiled.program := by
    refine ⟨by simpa using enough, ?_, constants, loads, bound, rfl, decides⟩
    intro number member
    obtain ⟨value, _, rfl⟩ := List.mem_map.mp member
    exact ⟨rfl, fun _ => rfl⟩
  obtain ⟨width, height, _⟩ := shape_of_compile compiles
  obtain ⟨machine, ran, top, wide⟩ := exists_run compiles supplied
  have some : machine.values ≠ [] := by
    intro none
    rw [none, List.length_nil] at top
    omega
  exact ⟨_, top_eq_ok_iff.mpr ⟨machine, ran, some, rfl⟩⟩

end Points

end Evaluation

/-- What a program reads is what it declares. Two inputs that agree at the slots that are named by a
step, with two stores that agree on the cells of the program, have the same outcome: value or fault,
degradations and buffer. A formula without inputs has one outcome for all points and stores. And a
compiled program fails for an index out of range exactly when the point is shorter than its argument
count. -/
theorem evaluate_reads_declared :
    (∀ (program : Program) (domain : Domain) (first second : Setting),
      first.AgreeOn second program → ∀ buffer width,
        Evaluation.evaluate domain first program buffer width =
          Evaluation.evaluate domain second program buffer width) ∧
    (∀ formula : Formula, formula.isConstant = true →
      ∀ (domain : Domain) (before after : Store) (point other : List Number),
        formula.evaluate before domain point = formula.evaluate after domain other ∧
        ∀ buffer width, formula.evaluateInto before domain point buffer width =
          formula.evaluateInto after domain other buffer width) ∧
    (∀ (scope : Scope) (source : Source) (compiled : Compiled),
      compile scope source = .ok compiled →
      ∀ (domain : Domain) (point : List Float) (store : Store) (bound : Number),
        (∀ constant, .constant constant ∈ compiled.program.steps →
          constant.value.isTooLarge = false) →
        (∀ cell ∈ compiled.program.cells, (store cell).isTooLarge = false) →
        bound.Decides →
        ((∃ cause, (Evaluation.evaluate domain ⟨point.map .real, store, some bound⟩
            compiled.program none none).top = .error cause ∧ cause.isIndex = true) ↔
          point.length < compiled.program.shape.argumentCount)) := by
  refine ⟨?_, ?_, ?_⟩
  · intro program domain first second agree buffer width
    exact Evaluation.evaluate_eq_of_agreeOn agree domain buffer width
  · intro formula constant domain before after point other
    have nothing : formula.program.shape.usesInputs = false := by
      simpa [Formula.isConstant] using constant
    have agree : (formula.setting before point).AgreeOn (formula.setting after other)
        formula.program := Setting.agreeOn_of_readsNothing nothing rfl
    have same := Evaluation.evaluate_eq_of_agreeOn agree domain
    refine ⟨?_, fun buffer width => ?_⟩
    · simp only [Formula.evaluate, Formula.usableScalar, Formula.usable]
      split_ifs <;> simp [same]
    · simp only [Formula.evaluateInto, Formula.usable]
      split_ifs <;> simp [same]
  · intro scope source compiled compiles domain point store bound constants cells decides
    have loads : ∀ cell, .external cell ∈ compiled.program.steps →
        (store cell).isTooLarge = false := fun cell member =>
      cells cell (Program.mem_foldl_noteCell_iff.mpr (.inr member))
    constructor
    · rintro ⟨cause, failed, _⟩
      refine Nat.lt_of_not_le fun enough => ?_
      obtain ⟨value, found⟩ := Evaluation.top_of_enough compiles constants loads decides enough
      rw [found] at failed
      cases failed
    · intro short
      exact ⟨.shortInput, Evaluation.top_of_short compiles constants loads decides short, rfl⟩

/-- A scaled pair with one argument has no value at the empty point, and the same outcome at points
that have the same first entry. -/
theorem scaledPair_reads_declared :
    ∃ compiled, compile singleScope (.text "(x, 2) * 3") = .ok compiled ∧
      (∃ cause, (Evaluation.evaluate .real ⟨[], fun _ => .real 0, some (.real 0)⟩ compiled.program
        none none).top = .error cause ∧ cause.isIndex = true) ∧
      Evaluation.evaluate .real ⟨[.real 5], fun _ => .real 0, none⟩ compiled.program none none =
        Evaluation.evaluate .real ⟨[.real 5, .real 7], fun _ => .real 1, none⟩ compiled.program
          none none := by
  have checked : ((compile singleScope (.text "(x, 2) * 3")).toOption.any fun compiled =>
      compiled.program.shape.argumentCount == 1 && compiled.program.cells.isEmpty &&
        compiled.program.steps.all Step.fits) = true := by decide +kernel
  cases compiles : compile singleScope (.text "(x, 2) * 3") with
  | error failure =>
      rw [compiles] at checked
      cases checked
  | ok compiled =>
      rw [compiles] at checked
      simp only [Except.toOption, Option.any_some, Bool.and_eq_true, beq_iff_eq,
        List.all_eq_true, List.isEmpty_iff] at checked
      obtain ⟨⟨count, noCells⟩, constants⟩ := checked
      refine ⟨compiled, rfl, ?_, ?_⟩
      · refine (evaluate_reads_declared.2.2 singleScope _ compiled compiles .real []
          (fun _ => .real 0) (.real 0) ?_ ?_ ⟨rfl, rfl⟩).mpr (by rw [count]; exact Nat.one_pos)
        · intro constant member
          simpa [Step.fits] using constants _ member
        · simp [noCells]
      · have agree : Setting.AgreeOn ⟨[.real 5], fun _ => .real 0, none⟩
            ⟨[.real 5, .real 7], fun _ => .real 1, none⟩ compiled.program := by
          refine ⟨?_, by simp [noCells], rfl⟩
          intro slot member
          have within := (Shape.extendAll_grows compiled.program.shape_eq).2.2 _ member
          rw [count] at within
          have first : slot.val - 1 = 0 := Nat.sub_eq_zero_of_le within
          rw [first]
          rfl
        exact evaluate_reads_declared.1 compiled.program .real _ _ agree none none

end Formulary
