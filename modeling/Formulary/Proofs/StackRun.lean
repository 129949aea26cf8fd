import Formulary.Proofs.ListEvaluation

/-!
# Runs of whole programs

The shape of a program is computed step by step, and so is a run of it. `Follows` says what one
step does to the shape; the lemmas on `extendAll` carry that over a sequence of steps.

A run in place and a run on a list go side by side. Where every step is balanced they are related
whatever happens, since no stack is taller than the depth that the shape foretells. Otherwise the
stack may outgrow the work area, and what can be said is that a run in place that succeeds has a
run on a list beside it.
-/

namespace Formulary

variable {α : Type}

/-- The slot that a step reads, or zero. -/
def Step.slot : Step → Nat
  | argument slot => slot.val
  | _ => 0

namespace Shape

/-- What is known after one more step, from what was known before. -/
structure Follows (shape next : Shape) (step : Step) : Prop where
  enough : step.operands ≤ shape.height
  height_eq : next.height = heightAfter shape.height step
  depth_eq : next.depth = max shape.depth next.height
  argumentCount_eq : next.argumentCount = max shape.argumentCount step.slot

/-- A step extends a shape exactly when its operands are there. -/
theorem extend_follows {index : Nat} {shape next : Shape} {step : Step}
    (extended : extend index shape step = .ok next) : Follows shape next step := by
  unfold extend at extended
  split at extended
  case isTrue short => cases extended
  case isFalse enough =>
      have operands := (step.operands_le_iff shape.height).mpr (by omega)
      cases step <;> cases extended <;> exact ⟨operands, rfl, rfl, by simp [Step.slot]⟩

/-- A sequence of steps extends a shape when its first step does and the others extend what that
gives. -/
theorem extendAll_cons_iff {index : Nat} {shape final : Shape} {step : Step} {rest : List Step} :
    extendAll index shape (step :: rest) = .ok final ↔
      ∃ next, extend index shape step = .ok next ∧ extendAll (index + 1) next rest = .ok final := by
  rw [extendAll]
  cases extend index shape step with
  | error error => simp
  | ok next => simp

/-- Steps extend a shape one part after the other. -/
theorem extendAll_append_iff {first second : List Step} {index : Nat} {shape final : Shape} :
    extendAll index shape (first ++ second) = .ok final ↔
      ∃ middle, extendAll index shape first = .ok middle ∧
        extendAll (index + first.length) middle second = .ok final := by
  induction first generalizing index shape with
  | nil => simp [extendAll]
  | cons step rest inductionHypothesis =>
      rw [List.cons_append, extendAll_cons_iff]
      simp only [inductionHypothesis, extendAll_cons_iff, List.length_cons]
      constructor
      · rintro ⟨next, extended, middle, reached, finished⟩
        refine ⟨middle, ⟨next, extended, reached⟩, ?_⟩
        rwa [show index + (rest.length + 1) = index + 1 + rest.length by omega]
      · rintro ⟨middle, ⟨next, extended, reached⟩, finished⟩
        refine ⟨next, extended, middle, reached, ?_⟩
        rwa [show index + (rest.length + 1) = index + 1 + rest.length by omega] at finished

/-- What was reached is never given up: neither the depth, nor the slots that were read. -/
theorem extendAll_grows {steps : List Step} {index : Nat} {shape final : Shape}
    (extended : extendAll index shape steps = .ok final) :
    shape.depth ≤ final.depth ∧ shape.argumentCount ≤ final.argumentCount ∧
      ∀ step ∈ steps, step.slot ≤ final.argumentCount := by
  induction steps generalizing index shape with
  | nil =>
      cases extended
      simp
  | cons step rest inductionHypothesis =>
      obtain ⟨next, first, later⟩ := extendAll_cons_iff.mp extended
      have follows := extend_follows first
      have depth := follows.depth_eq
      have count := follows.argumentCount_eq
      obtain ⟨deeper, more, slots⟩ := inductionHypothesis later
      refine ⟨by omega, by omega, ?_⟩
      intro other member
      rcases List.mem_cons.mp member with rfl | member
      · omega
      · exact slots other member

end Shape

namespace Evaluation

/-- A stack that is as tall as foretold is so after a step too. -/
theorem height_le_of_execList {arithmetic : Arithmetic α} {setting : Setting} {index : Nat}
    {step : Step} {shape reached : Shape} {stack next : List α}
    (follows : shape.Follows reached step) (tall : shape.height ≤ stack.length)
    (ran : (execList arithmetic setting index step stack).result = .ok next) :
    reached.height ≤ next.length := by
  have taller := length_execList (Nat.le_trans follows.enough tall) ran
  have foretold := step.heightAfter_le follows.enough
  rw [← follows.height_eq] at foretold
  omega

variable (arithmetic : Arithmetic α) (setting : Setting)

/-- A balanced step does in place what it does on a list, and reaches the height that its shape
foretells. -/
theorem exec_related_balanced (index : Nat) {step : Step} {shape next : Shape}
    {machine : Machine α} {stack : List α} (balanced : step.Balanced)
    (follows : shape.Follows next step) (carries : machine.Carries stack)
    (tall : stack.length = shape.height) (room : next.depth ≤ machine.memory.size) :
    Logged.Related (fun after values =>
        Carried machine.memory.size after values ∧ values.length = next.height)
      (exec arithmetic setting index step machine)
      (execList arithmetic setting index step stack) := by
  have enough := follows.enough
  rw [← tall] at enough
  have exact := (step.heightAfter_eq_iff enough).mpr balanced
  rw [tall, ← follows.height_eq, ← tall] at exact
  refine (exec_related arithmetic setting index step carries enough).of_checked ?_
  intro values ran
  have taller := length_execList enough ran
  have depth := follows.depth_eq
  exact ⟨if_pos (by omega), by omega⟩

/-- Balanced steps do in place what they do on a list. -/
theorem execAll_related_balanced {steps : List Step} (index : Nat) {first : Nat}
    {shape final : Shape} {machine : Machine α} {stack : List α}
    (balanced : ∀ step ∈ steps, step.Balanced)
    (extended : Shape.extendAll first shape steps = .ok final) (carries : machine.Carries stack)
    (tall : stack.length = shape.height) (room : final.depth ≤ machine.memory.size) :
    Logged.Related (fun after values =>
        Carried machine.memory.size after values ∧ values.length = final.height)
      (execAll arithmetic setting index steps machine)
      (execAllList arithmetic setting index steps stack) := by
  induction steps generalizing index first shape machine stack with
  | nil =>
      cases extended
      exact .value [] ⟨⟨rfl, carries⟩, tall⟩
  | cons step rest inductionHypothesis =>
      obtain ⟨next, extendedFirst, extendedRest⟩ := Shape.extendAll_cons_iff.mp extended
      have deeper := (Shape.extendAll_grows extendedRest).1
      have related := exec_related_balanced arithmetic setting index
        (balanced step List.mem_cons_self) (Shape.extend_follows extendedFirst) carries tall
        (Nat.le_trans deeper room)
      refine related.bind ?_
      rintro after values ⟨⟨sized, carried⟩, reached⟩
      rw [← sized] at room ⊢
      exact inductionHypothesis (index + 1)
        (fun other member => balanced other (List.mem_cons_of_mem _ member)) extendedRest carried
        reached room

/-- A run in place that succeeds has a run on a list beside it, which logs the same and ends with
the same stack. -/
theorem execAll_succeeds_on_list {steps : List Step} {index first : Nat} {shape final : Shape}
    {machine after : Machine α} {stack : List α}
    (extended : Shape.extendAll first shape steps = .ok final) (carries : machine.Carries stack)
    (tall : shape.height ≤ stack.length)
    (ran : (execAll arithmetic setting index steps machine).result = .ok after) :
    ∃ values, (execAllList arithmetic setting index steps stack).result = .ok values ∧
      (execAllList arithmetic setting index steps stack).log =
        (execAll arithmetic setting index steps machine).log ∧
      after.Carries values ∧ final.height ≤ values.length := by
  induction steps generalizing index first shape machine stack with
  | nil =>
      cases extended
      cases ran
      exact ⟨stack, rfl, rfl, carries, tall⟩
  | cons step rest inductionHypothesis =>
      obtain ⟨reached, extendedFirst, extendedRest⟩ := Shape.extendAll_cons_iff.mp extended
      have follows := Shape.extend_follows extendedFirst
      have enough := Nat.le_trans follows.enough tall
      obtain ⟨middle, ranFirst, ranRest⟩ := Logged.result_bind_eq_ok_iff.mp ran
      obtain ⟨next, listed, logged, _, carried⟩ :=
        exec_succeeds_on_list arithmetic setting index step carries enough ranFirst
      obtain ⟨values, listedRest, loggedRest, carriedRest, tallRest⟩ :=
        inductionHypothesis extendedRest carried (height_le_of_execList follows tall listed) ranRest
      refine ⟨values, ?_, ?_, carriedRest, tallRest⟩
      · exact Logged.result_bind_eq_ok_iff.mpr ⟨next, listed, listedRest⟩
      · simp only [execAll, execAllList, Logged.bind_eq, Logged.log_bind_of_ok ranFirst,
          Logged.log_bind_of_ok listed, logged, loggedRest]

end Evaluation

end Formulary
