import Formulary.Proofs.StackRun

/-!
# What a run has to be supplied with

A run reads input slots, constants and cells, and asks questions of the tolerance. `Supplies` says
that it gets an answer each time: the input is long enough, every number that is read has a scalar
in the domain, and the tolerance is a number that scalars can be compared with.

On a list that is all a run needs; nothing else in it can end it early.
-/

namespace Formulary

/-- A domain has a scalar for an input: it is not too large, and not complex among reals. -/
def Domain.Accepts (domain : Domain) (number : Number) : Prop :=
  number.isTooLarge = false ∧ (domain = .real → number.isComplex = false)

/-- Every question about scalars is decided by the number as a tolerance. -/
def Number.Decides (bound : Number) : Prop :=
  bound.isTooLarge = false ∧ bound.isComplex = false

namespace Setting

/-- What a step reads from outside is there. -/
def Provides (setting : Setting) (domain : Domain) : Step → Prop
  | .constant constant => constant.value.isTooLarge = false
  | .argument slot => ∃ number, setting.inputs[slot.val - 1]? = some number ∧ domain.Accepts number
  | .external cell => (setting.store cell).isTooLarge = false
  | _ => True

/-- What a program needs to run in a domain. -/
structure Supplies (setting : Setting) (domain : Domain) (program : Program) : Prop where
  enough : program.shape.argumentCount ≤ setting.inputs.length
  inputs : ∀ number ∈ setting.inputs, domain.Accepts number
  constants : ∀ constant, .constant constant ∈ program.steps → constant.value.isTooLarge = false
  cells : ∀ cell, .external cell ∈ program.steps → (setting.store cell).isTooLarge = false
  tolerance : ∃ bound, setting.tolerance = some bound ∧ bound.Decides

/-- What a program needs as a whole is there for each of its steps. -/
theorem Supplies.provides {setting : Setting} {domain : Domain} {program : Program}
    (supplied : setting.Supplies domain program) :
    ∀ step ∈ program.steps, setting.Provides domain step := by
  intro step member
  cases step with
  | constant constant => exact supplied.constants constant member
  | external cell => exact supplied.cells cell member
  | argument slot =>
      have read : slot.val ≤ program.shape.argumentCount :=
        (Shape.extendAll_grows program.shape_eq).2.2 _ member
      have positive := slot.property
      have enough := supplied.enough
      have inside : slot.val - 1 < setting.inputs.length := by omega
      exact ⟨_, List.getElem?_eq_getElem inside, supplied.inputs _ (List.getElem_mem inside)⟩
  | _ => trivial

end Setting

/-! ## Questions that are decided -/

namespace Tolerance

/-- A whole number that is not too large has a double. -/
theorem exists_doubleOfInt {value : Int} (fits : (Number.int value).isTooLarge = false) :
    ∃ found, doubleOfInt value = .ok found := by
  simp only [Number.isTooLarge, Option.isNone_eq_false_iff, Option.isSome_iff_exists] at fits
  obtain ⟨found, converted⟩ := fits
  exact ⟨found, by rw [doubleOfInt, converted]⟩

variable {bound : Number} (decides : bound.Decides)

include decides

theorem exists_isExceeded (value : Float) : ∃ flag, isExceeded value bound = .ok flag := by
  cases bound with
  | int whole =>
      obtain ⟨found, converted⟩ := exists_doubleOfInt decides.1
      exact ⟨_, by rw [isExceeded, converted]; rfl⟩
  | real found => exact ⟨_, rfl⟩
  | complex found => exact ⟨_, rfl⟩

theorem exists_isKept (value : Float) : ∃ flag, isKept value bound = .ok flag := by
  cases bound with
  | int whole =>
      obtain ⟨found, converted⟩ := exists_doubleOfInt decides.1
      exact ⟨_, by rw [isKept, converted]; rfl⟩
  | real found => exact ⟨_, rfl⟩
  | complex found => exact ⟨_, rfl⟩

theorem exists_compareZeros (comparison : Comparison) :
    ∃ flag, compareZeros bound comparison = .ok flag := by
  cases bound with
  | complex found => exact absurd decides.2 (by simp [Number.isComplex])
  | _ => cases comparison <;> exact ⟨_, rfl⟩

end Tolerance

namespace Domain

variable (domain : Domain)

theorem exists_input {number : Number} (accepted : domain.Accepts number) :
    ∃ value, domain.arithmetic.input number = .ok value := by
  cases number with
  | int whole =>
      obtain ⟨found, converted⟩ := Tolerance.exists_doubleOfInt accepted.1
      cases domain with
      | real => exact ⟨found, converted⟩
      | complex => exact ⟨.ofReal found, by
          simp only [arithmetic, Arithmetic.complex, Arithmetic.complexInput, converted]
          rfl⟩
  | real found => cases domain <;> exact ⟨_, rfl⟩
  | complex found =>
      cases domain with
      | real => exact absurd (accepted.2 rfl) (by simp [Number.isComplex])
      | complex => exact ⟨found, rfl⟩

theorem exists_stored {number : Number} (fits : number.isTooLarge = false) :
    ∃ value, domain.arithmetic.stored number = .ok value := by
  cases number with
  | int whole =>
      obtain ⟨found, converted⟩ := Tolerance.exists_doubleOfInt fits
      cases domain with
      | real => exact ⟨(found, false), by
          simp only [arithmetic, Arithmetic.real, Arithmetic.realStored, converted]
          rfl⟩
      | complex => exact ⟨(.ofReal found, false), by
          simp only [arithmetic, Arithmetic.complex, Arithmetic.complexInput, converted]
          rfl⟩
  | real found => cases domain <;> exact ⟨_, rfl⟩
  | complex found =>
      cases domain with
      | real =>
          simp only [arithmetic, Arithmetic.real, Arithmetic.realStored]
          split <;> exact ⟨_, rfl⟩
      | complex => exact ⟨_, rfl⟩

variable {bound : Number} (decides : bound.Decides)

include decides

theorem exists_exceeds (value : domain.Scalar) :
    ∃ flag, domain.arithmetic.exceeds value bound = .ok flag := by
  cases domain with
  | real => exact Tolerance.exists_isExceeded decides value
  | complex => exact Tolerance.exists_isExceeded decides value.re

theorem exists_within (value : domain.Scalar) :
    ∃ flag, domain.arithmetic.within value bound = .ok flag := by
  cases domain with
  | real => exact Tolerance.exists_isKept decides value.abs
  | complex => exact Tolerance.exists_isKept decides value.re.abs

theorem exists_compare (comparison : Comparison) (left right : domain.Scalar) :
    ∃ flag, domain.arithmetic.compare bound comparison left right = .ok flag := by
  obtain ⟨above, exceeds⟩ := exists_exceeds domain decides (domain.arithmetic.sub left right)
  obtain ⟨below, exceeded⟩ := exists_exceeds domain decides (domain.arithmetic.sub right left)
  obtain ⟨near, kept⟩ := exists_within domain decides (domain.arithmetic.sub left right)
  cases comparison with
  | greater => exact ⟨above, exceeds⟩
  | less => exact ⟨below, exceeded⟩
  | greaterEqual => exact ⟨!below, by rw [Arithmetic.compare, exceeded]; rfl⟩
  | lessEqual => exact ⟨!above, by rw [Arithmetic.compare, exceeds]; rfl⟩
  | equal => exact ⟨near, kept⟩

theorem exists_connect (logical : Logical) (left right : domain.Scalar) :
    ∃ flag, domain.arithmetic.connect bound logical left right = .ok flag := by
  obtain ⟨first, leftExceeds⟩ := exists_exceeds domain decides left
  obtain ⟨second, rightExceeds⟩ := exists_exceeds domain decides right
  rw [Arithmetic.connect, leftExceeds, rightExceeds]
  cases logical <;> exact ⟨_, rfl⟩

theorem exists_negate (value : domain.Scalar) :
    ∃ flag, domain.arithmetic.negate bound value = .ok flag := by
  obtain ⟨flag, exceeds⟩ := exists_exceeds domain decides value
  exact ⟨!flag, by rw [Arithmetic.negate, exceeds]; rfl⟩

end Domain

/-! ## Runs on lists -/

namespace Evaluation

open Logged (succeeds_value succeeds_noteIf succeeds_ofExcept)

variable {domain : Domain} {setting : Setting} {bound : Number}

theorem load_succeeds (index : Nat) (place : Place) {number : Number}
    (fits : number.isTooLarge = false) :
    (load domain.arithmetic index place number).Succeeds :=
  (succeeds_ofExcept (domain.exists_stored fits)).bind fun _ =>
    (succeeds_noteIf _ _).bind fun _ => succeeds_value _

section Operators

variable (decides : bound.Decides)

include decides

theorem binary_succeeds (index : Nat) (operator : Operator) (left right : domain.Scalar) :
    (binary domain.arithmetic (some bound) index operator left right).Succeeds := by
  cases operator with
  | arithmetical found => exact succeeds_value _
  | not => exact succeeds_value _
  | logical found =>
      refine ((succeeds_noteIf _ _).bind fun _ => succeeds_value _).bind fun first => ?_
      refine ((succeeds_noteIf _ _).bind fun _ => succeeds_value _).bind fun second => ?_
      exact (succeeds_ofExcept (domain.exists_connect decides found first second)).bind
        fun _ => succeeds_value _
  | comparison found =>
      refine ((succeeds_noteIf _ _).bind fun _ => succeeds_value _).bind fun first => ?_
      refine ((succeeds_noteIf _ _).bind fun _ => succeeds_value _).bind fun second => ?_
      dsimp only
      split
      · exact (succeeds_ofExcept (Tolerance.exists_compareZeros decides found)).bind
          fun _ => succeeds_value _
      · exact (succeeds_ofExcept (domain.exists_compare decides found first second)).bind
          fun _ => succeeds_value _

theorem negation_succeeds (index : Nat) (value : domain.Scalar) :
    (negation domain.arithmetic (some bound) index value).Succeeds :=
  ((succeeds_noteIf _ _).bind fun _ => succeeds_value _).bind fun operand =>
    (succeeds_ofExcept (domain.exists_negate decides operand)).bind fun _ => succeeds_value _

end Operators

/-- A step whose operands are there has results. -/
theorem answer_succeeds (tolerance : setting.tolerance = some bound) (decides : bound.Decides)
    (index : Nat) {step : Step} {operands : List domain.Scalar}
    (provided : setting.Provides domain step) (exact : operands.length = step.operands) :
    (answer domain.arithmetic setting index step operands).Succeeds := by
  cases step with
  | constant constant => exact (load_succeeds index _ provided).bind fun _ => succeeds_value _
  | external cell => exact (load_succeeds index _ provided).bind fun _ => succeeds_value _
  | argument slot =>
      obtain ⟨number, read, accepted⟩ := provided
      have found : ∃ value, input domain.arithmetic setting slot.val = .ok value := by
        rw [input, read]
        exact domain.exists_input accepted
      exact (succeeds_ofExcept found).bind fun _ => succeeds_value _
  | call function => exact succeeds_value _
  | negate width => exact succeeds_value _
  | vector operator left right => exact succeeds_value _
  | operator operator =>
      cases operator with
      | not =>
          obtain ⟨value, rfl⟩ := List.length_eq_one_iff.mp exact
          simp only [answer, tolerance]
          exact (negation_succeeds decides index value).bind fun _ => succeeds_value _
      | _ =>
          obtain ⟨left, right, rfl⟩ := List.length_eq_two.mp exact
          simp only [answer, tolerance]
          exact (binary_succeeds decides index _ left right).bind fun _ => succeeds_value _

/-- A step that is provided for runs on a list that holds its operands. -/
theorem execList_succeeds (tolerance : setting.tolerance = some bound) (decides : bound.Decides)
    (index : Nat) {step : Step} {stack : List domain.Scalar}
    (provided : setting.Provides domain step) (enough : step.operands ≤ stack.length) :
    (execList domain.arithmetic setting index step stack).Succeeds := by
  obtain ⟨below, operands, rfl, exact⟩ := Kernel.exists_append_of_le enough
  rw [execList_append exact]
  exact (answer_succeeds tolerance decides index provided exact).bind fun _ => succeeds_value _

/-- Steps that are provided for run on a list, and leave at least the height that is foretold. -/
theorem execAllList_succeeds (tolerance : setting.tolerance = some bound) (decides : bound.Decides)
    (index : Nat) {steps : List Step} {first : Nat} {shape final : Shape}
    {stack : List domain.Scalar} (provided : ∀ step ∈ steps, setting.Provides domain step)
    (extended : Shape.extendAll first shape steps = .ok final)
    (tall : shape.height ≤ stack.length) :
    ∃ values, (execAllList domain.arithmetic setting index steps stack).result = .ok values ∧
      final.height ≤ values.length := by
  induction steps generalizing index first shape stack with
  | nil =>
      cases extended
      exact ⟨stack, rfl, tall⟩
  | cons step rest inductionHypothesis =>
      obtain ⟨reached, extendedFirst, extendedRest⟩ := Shape.extendAll_cons_iff.mp extended
      have follows := Shape.extend_follows extendedFirst
      have enough := Nat.le_trans follows.enough tall
      obtain ⟨next, ran⟩ :=
        execList_succeeds tolerance decides index (provided step List.mem_cons_self) enough
      obtain ⟨values, ranRest, finished⟩ := inductionHypothesis (index + 1)
        (fun other member => provided other (List.mem_cons_of_mem _ member)) extendedRest
        (height_le_of_execList follows tall ran)
      exact ⟨values, Logged.result_bind_eq_ok_iff.mpr ⟨next, ran, ranRest⟩, finished⟩

end Evaluation

end Formulary
