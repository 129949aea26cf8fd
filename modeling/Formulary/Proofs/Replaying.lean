import Formulary.Proofs.Compilation
import Formulary.Replay
import Mathlib

/-!
# Replaying the code of an expression

The entries that the code of an expression leaves on a replay stack are known from the expression:
a comma list leaves those of its items, an argument one for each slot, and everything else a single
one. Together they are as wide as the expression. So the operands of a step are whole entries, and
no entry is ever split.
-/

namespace Formulary

open Outcome (bind_eq_ok_iff)

/-! ## Taking whole entries -/

/-- The formula of entries side by side, the one lowest on the stack first. -/
def Replayed.joined (entries : List ReplayEntry) : Replayed :=
  .ofParts (entries.map ReplayEntry.formula)

/-- The number of values that entries stand for. -/
def ReplayEntry.total (entries : List ReplayEntry) : Int :=
  (entries.map width).sum

/-- Every entry stands for a value at least. -/
def ReplayEntry.Solid (entries : List ReplayEntry) : Prop :=
  ∀ entry ∈ entries, 0 < entry.width

namespace Replay

open ReplayEntry (total Solid)
open Replayed (joined)

variable {entries below : List ReplayEntry}

theorem total_nonneg (solid : Solid entries) : 0 ≤ total entries :=
  List.sum_nonneg fun width member => by
    obtain ⟨entry, inside, rfl⟩ := List.mem_map.mp member
    exact (solid entry inside).le

/-- A group that is as wide as some entries together takes just these. -/
theorem takeGroup_eq {width taken : Int} {parts : List Replayed} (solid : Solid entries)
    (exact : taken + total entries = width) :
    takeGroup width taken parts (entries.reverse ++ below) =
      .ok (entries.map ReplayEntry.formula ++ parts, below) := by
  -- The entry on top of the stack is the last one, so the induction is from behind.
  induction entries using List.reverseRecOn generalizing taken parts with
  | nil =>
      have enough : ¬taken < width := by simp [total] at exact; omega
      cases below with
      | nil => simp [takeGroup, if_neg enough]
      | cons => simp [takeGroup, if_neg enough]
  | append_singleton others last inductionHypothesis =>
      have lastSolid : 0 < last.width := solid last (by simp)
      have othersSolid : Solid others := fun entry member => solid entry (by simp [member])
      have rest := total_nonneg othersSolid
      have split : total (others ++ [last]) = total others + last.width := by simp [total]
      have few : taken < width := by omega
      have whole : ¬width < taken + last.width := by omega
      rw [List.reverse_append, List.reverse_singleton, List.singleton_append, List.cons_append,
        takeGroup, if_pos few, if_neg whole, inductionHypothesis othersSolid (by omega)]
      simp

theorem popGroup_eq {width : Int} (solid : Solid entries) (exact : total entries = width) :
    popGroup width (entries.reverse ++ below) = .ok (joined entries, below) := by
  rw [popGroup, takeGroup_eq solid (by omega), List.append_nil]
  rfl

/-- Scalars are taken one by one. -/
theorem popScalars_eq {taken : List Replayed} (scalars : ∀ entry ∈ entries, entry.width = 1) :
    popScalars entries.length taken (entries.reverse ++ below) =
      .ok (entries.map ReplayEntry.formula ++ taken, below) := by
  induction entries using List.reverseRecOn generalizing taken with
  | nil => rfl
  | append_singleton others last inductionHypothesis =>
      have lastScalar : last.width = 1 := scalars last (by simp)
      have popped : popGroup 1 ([last].reverse ++ (others.reverse ++ below)) =
          .ok (joined [last], others.reverse ++ below) :=
        popGroup_eq (by intro entry member; simp_all) (by simp [total, lastScalar])
      have othersScalar : ∀ entry ∈ others, entry.width = 1 :=
        fun entry member => scalars entry (by simp [member])
      have rest := @inductionHypothesis (last.formula :: taken) othersScalar
      rw [List.length_append, List.length_singleton, popScalars, List.reverse_append,
        List.append_assoc, popped]
      simpa [joined, Replayed.ofParts] using rest

theorem run_append (first second : List Step) (stack : List ReplayEntry) :
    run (first ++ second) stack = run first stack >>= run second := by
  induction first generalizing stack with
  | nil => rfl
  | cons step rest inductionHypothesis =>
      simp only [List.cons_append, run]
      cases Replay.step step stack with
      | error => rfl
      | ok next => exact inductionHypothesis next

end Replay

/-! ## Steps on two operands -/

/-- Whether a step takes two operands of some widths. -/
def Step.Takes (left right : Nat) : Step → Prop
  | .operator .not => False
  | .operator _ => left = 1 ∧ right = 1
  | .vector _ first second => left = first.val ∧ right = second.val
  | _ => False

/-- What a step makes of the formulas of two operands. -/
def Step.replayed (left right : Replayed) : Step → Replayed
  | .vector found _ _ => .vector found left right
  | .operator found => .operator found left right
  | _ => left

/-- A step takes the entries of its two operands. -/
theorem Replay.step_pair {step : Step} {first second stack : List ReplayEntry} {left right : Nat}
    (takes : step.Takes left right) (firstSolid : ReplayEntry.Solid first)
    (firstTotal : ReplayEntry.total first = left) (secondSolid : ReplayEntry.Solid second)
    (secondTotal : ReplayEntry.total second = right) :
    Replay.step step (second.reverse ++ (first.reverse ++ stack)) =
      .ok (⟨step.replayed (.joined first) (.joined second), step.pushes⟩ :: stack) := by
  cases step with
  | operator found =>
      cases found with
      | not => exact absurd takes id
      | _ =>
          obtain ⟨rfl, rfl⟩ := takes
          simp only [Replay.step]
          rw [popGroup_eq secondSolid (by simpa using secondTotal), Outcome.ok_bind,
            popGroup_eq firstSolid (by simpa using firstTotal)]
          rfl
  | vector found leftWidth rightWidth =>
      obtain ⟨rfl, rfl⟩ := takes
      simp only [Replay.step]
      rw [popGroup_eq secondSolid secondTotal, Outcome.ok_bind, popGroup_eq firstSolid firstTotal]
      rfl
  | _ => exact absurd takes id

namespace Expression

theorem takes_sumStep (sign : SumSign) (left right : Expression) :
    (sumStep sign left right).Takes left.width right.width := by
  unfold sumStep
  split
  case isTrue scalars => cases sign <;> exact scalars
  case isFalse => cases sign <;> exact ⟨rfl, rfl⟩

theorem takes_productStep (left right : Expression) :
    (productStep left right).Takes left.width right.width := by
  unfold productStep
  split
  case isTrue leftScalar =>
      split
      case isTrue rightScalar => exact ⟨leftScalar, rightScalar⟩
      case isFalse => exact ⟨rfl, rfl⟩
  case isFalse => split <;> exact ⟨rfl, rfl⟩

theorem takes_quotientStep {left right : Expression} (divisor : right.width = 1) :
    (quotientStep left right).Takes left.width right.width := by
  unfold quotientStep
  split
  case isTrue dividend => exact ⟨dividend, divisor⟩
  case isFalse => exact ⟨rfl, rfl⟩

/-! ## The entries of an expression -/

/-- The entries that the code of an expression leaves, the one lowest on the stack first. -/
def entries : Expression → List ReplayEntry
  | constant value => [⟨.constant value, 1⟩]
  | cell named => [⟨.cell named, 1⟩]
  | argument declared => declared.slots.map fun slot => ⟨.argument slot, 1⟩
  | call function operand => [⟨.call function (operand.entries.map ReplayEntry.formula), 1⟩]
  | concat left right => left.entries ++ right.entries
  | negate operand => [⟨.negate (.joined operand.entries), operand.width⟩]
  | not operand => [⟨.not (.joined operand.entries), 1⟩]
  | logical operator left right =>
    [⟨.operator (.logical operator) (.joined left.entries) (.joined right.entries), 1⟩]
  | comparison operator left right =>
    [⟨.operator (.comparison operator) (.joined left.entries) (.joined right.entries), 1⟩]
  | sum sign left right =>
    [⟨(sumStep sign left right).replayed (.joined left.entries) (.joined right.entries),
      (sumStep sign left right).pushes⟩]
  | product left right =>
    [⟨(productStep left right).replayed (.joined left.entries) (.joined right.entries),
      (productStep left right).pushes⟩]
  | quotient left right =>
    [⟨(quotientStep left right).replayed (.joined left.entries) (.joined right.entries),
      (quotientStep left right).pushes⟩]

theorem pushes_sumStep (sign : SumSign) (left right : Expression) :
    (sumStep sign left right).pushes = (sum sign left right).width := by
  unfold sumStep
  split
  case isTrue scalars =>
      rw [width, scalars.1, scalars.2]
      cases sign <;> rfl
  case isFalse => cases sign <;> rfl

theorem pushes_productStep (left right : Expression) :
    (productStep left right).pushes = (product left right).width := by
  rw [width]
  unfold productStep
  split
  case isTrue leftScalar =>
      split
      case isTrue rightScalar => rw [rightScalar]; rfl
      case isFalse => rfl
  case isFalse => split <;> rfl

theorem pushes_quotientStep (left right : Expression) :
    (quotientStep left right).pushes = (quotient left right).width := by
  rw [width]
  unfold quotientStep
  split
  case isTrue scalar => rw [scalar]; rfl
  case isFalse => rfl

open ReplayEntry (total Solid)

theorem solid_entries (expression : Expression) : Solid expression.entries := by
  induction expression with
  | concat left right leftHypothesis rightHypothesis =>
      exact List.forall_mem_append.mpr ⟨leftHypothesis, rightHypothesis⟩
  | argument declared =>
      intro entry member
      obtain ⟨slot, _, rfl⟩ := List.mem_map.mp member
      exact Int.one_pos
  | negate operand =>
      exact List.forall_mem_singleton.mpr (Int.natCast_pos.mpr operand.width_pos)
  | sum sign left right =>
      refine List.forall_mem_singleton.mpr ?_
      rw [pushes_sumStep]
      exact Int.natCast_pos.mpr (width_pos _)
  | product left right =>
      refine List.forall_mem_singleton.mpr ?_
      rw [pushes_productStep]
      exact Int.natCast_pos.mpr (width_pos _)
  | quotient left right =>
      refine List.forall_mem_singleton.mpr ?_
      rw [pushes_quotientStep]
      exact Int.natCast_pos.mpr (width_pos _)
  | _ => exact List.forall_mem_singleton.mpr Int.one_pos

/-- The entries of an expression are as wide together as the expression. -/
theorem total_entries (expression : Expression) :
    total expression.entries = expression.width := by
  induction expression with
  | concat left right leftHypothesis rightHypothesis =>
      have split : total (left.entries ++ right.entries) =
          total left.entries + total right.entries := by simp [total]
      rw [entries, split, leftHypothesis, rightHypothesis, width, Int.natCast_add]
  | argument declared =>
      simp only [entries, total, List.map_map, Function.comp_def, List.map_const',
        List.sum_replicate, declared.length_slots, width]
      simp
  | sum sign left right =>
      simpa [entries, total] using pushes_sumStep sign left right
  | product left right => simpa [entries, total] using pushes_productStep left right
  | quotient left right => simpa [entries, total] using pushes_quotientStep left right
  | _ => simp [entries, total, width]

/-- Scalar entries are as many as the expression is wide. -/
theorem length_entries (expression : Expression)
    (scalars : ∀ entry ∈ expression.entries, entry.width = 1) :
    expression.entries.length = expression.width := by
  have total := expression.total_entries
  have ones : expression.entries.map ReplayEntry.width =
      List.replicate expression.entries.length 1 :=
    List.eq_replicate_iff.mpr ⟨by simp, by simpa using scalars⟩
  rw [ReplayEntry.total, ones, List.sum_replicate] at total
  exact Int.ofNat_inj.mp (by simpa using total)

/-! ## The replay of code -/

/-- Whether every function that is called has a scalar entry for each of its arguments. -/
def Flat : Expression → Prop
  | call _ operand => operand.Flat ∧ ∀ entry ∈ operand.entries, entry.width = 1
  | concat left right => left.Flat ∧ right.Flat
  | negate operand => operand.Flat
  | not operand => operand.Flat
  | logical _ left right => left.Flat ∧ right.Flat
  | comparison _ left right => left.Flat ∧ right.Flat
  | sum _ left right => left.Flat ∧ right.Flat
  | product left right => left.Flat ∧ right.Flat
  | quotient left right => left.Flat ∧ right.Flat
  | _ => True

/-- Whether the constants in code can be written. -/
def Writable (steps : List Step) : Prop :=
  ∀ step ∈ steps, step.isUnwritable = false

variable {left right : Expression} {stack : List ReplayEntry}

theorem Writable.operand {operand : List Step} {last : Step}
    (writable : Writable (operand ++ [last])) : Writable operand :=
  (List.forall_mem_append.mp writable).1

theorem Writable.operands {first second : List Step} {last : Step}
    (writable : Writable (first ++ second ++ [last])) : Writable first ∧ Writable second :=
  List.forall_mem_append.mp writable.operand

/-- Code for two operands and a step that takes them leaves one entry. -/
theorem run_pair {step : Step}
    (leftRuns : ∀ stack, Replay.run left.code stack = .ok (left.entries.reverse ++ stack))
    (rightRuns : ∀ stack, Replay.run right.code stack = .ok (right.entries.reverse ++ stack))
    (takes : step.Takes left.width right.width) :
    Replay.run (left.code ++ right.code ++ [step]) stack =
      .ok (⟨step.replayed (.joined left.entries) (.joined right.entries), step.pushes⟩ ::
        stack) := by
  rw [Replay.run_append, Replay.run_append, leftRuns, Outcome.ok_bind, rightRuns, Outcome.ok_bind,
    Replay.run, Replay.step_pair takes left.solid_entries left.total_entries right.solid_entries
      right.total_entries]
  rfl

theorem run_slots (slots : List Positive) (stack : List ReplayEntry) :
    Replay.run (slots.map .argument) stack =
      .ok ((slots.map fun slot => ⟨.argument slot, 1⟩).reverse ++ stack) := by
  induction slots generalizing stack with
  | nil => rfl
  | cons slot rest inductionHypothesis =>
      rw [List.map_cons, Replay.run, Replay.step, Outcome.ok_bind, inductionHypothesis]
      simp

/-- The replay of the code of an expression leaves its entries. -/
theorem run_code {expression : Expression} (typed : expression.WellTyped)
    (flat : expression.Flat) (writable : Writable expression.code) (stack : List ReplayEntry) :
    Replay.run expression.code stack = .ok (expression.entries.reverse ++ stack) := by
  induction expression generalizing stack with
  | constant value =>
      have fits : value.value.isTooLarge = false := writable _ (.head _)
      simp [code, Replay.run, Replay.step, fits, entries]
  | cell named => rfl
  | argument declared => exact run_slots declared.slots stack
  | call function operand inductionHypothesis =>
      have runs := inductionHypothesis typed.1 flat.1 writable.operand stack
      have arity : operand.entries.length = function.arity :=
        (operand.length_entries flat.2).trans typed.2
      rw [code, Replay.run_append, runs, Outcome.ok_bind, Replay.run, Replay.step, ← arity,
        Replay.popScalars_eq flat.2]
      simp [entries, Replay.run]
  | concat left right leftHypothesis rightHypothesis =>
      obtain ⟨inLeft, inRight⟩ := List.forall_mem_append.mp writable
      rw [code, Replay.run_append, leftHypothesis typed.1 flat.1 inLeft, Outcome.ok_bind,
        rightHypothesis typed.2 flat.2 inRight]
      simp [entries]
  | negate operand inductionHypothesis =>
      rw [code, Replay.run_append, inductionHypothesis typed flat writable.operand,
        Outcome.ok_bind, Replay.run, Replay.step,
        Replay.popGroup_eq operand.solid_entries operand.total_entries]
      rfl
  | not operand inductionHypothesis =>
      rw [code, Replay.run_append, inductionHypothesis typed.1 flat writable.operand,
        Outcome.ok_bind, Replay.run, Replay.step, Replay.popGroup_eq operand.solid_entries
          (by rw [operand.total_entries, typed.2]; rfl)]
      rfl
  | logical operator left right leftHypothesis rightHypothesis =>
      obtain ⟨inLeft, inRight⟩ := writable.operands
      exact run_pair (leftHypothesis typed.1 flat.1 inLeft)
        (rightHypothesis typed.2.1 flat.2 inRight) typed.2.2
  | comparison operator left right leftHypothesis rightHypothesis =>
      obtain ⟨inLeft, inRight⟩ := writable.operands
      exact run_pair (leftHypothesis typed.1 flat.1 inLeft)
        (rightHypothesis typed.2.1 flat.2 inRight) typed.2.2
  | sum sign left right leftHypothesis rightHypothesis =>
      obtain ⟨inLeft, inRight⟩ := writable.operands
      exact run_pair (leftHypothesis typed.1 flat.1 inLeft) (rightHypothesis typed.2 flat.2 inRight)
        (takes_sumStep sign left right)
  | product left right leftHypothesis rightHypothesis =>
      obtain ⟨inLeft, inRight⟩ := writable.operands
      exact run_pair (leftHypothesis typed.1 flat.1 inLeft) (rightHypothesis typed.2 flat.2 inRight)
        (takes_productStep left right)
  | quotient left right leftHypothesis rightHypothesis =>
      obtain ⟨inLeft, inRight⟩ := writable.operands
      exact run_pair (leftHypothesis typed.1 flat.1 inLeft)
        (rightHypothesis typed.2.1 flat.2 inRight) (takes_quotientStep typed.2.2)

end Expression

/-! ## What is read is flat -/

/-- A scalar leaves scalar entries: one, that is. -/
theorem Expression.scalar_entries {expression : Expression} (scalar : expression.width = 1) :
    ∀ entry ∈ expression.entries, entry.width = 1 := by
  intro entry member
  have positive := expression.solid_entries entry member
  have total := expression.total_entries
  have bounded : entry.width ≤ ReplayEntry.total expression.entries := by
    refine List.single_le_sum (fun width inside => ?_) _ (List.mem_map_of_mem member)
    obtain ⟨other, there, rfl⟩ := List.mem_map.mp inside
    exact (expression.solid_entries other there).le
  omega

namespace Grammar.Derivation

/-- A list of scalars leaves scalar entries. -/
theorem scalar_entries {level : Level} (list : level = .list) {derivation : Derivation level}
    (scalars : ∀ width ∈ derivation.operandWidths, width = 1) :
    ∀ entry ∈ derivation.tree.entries, entry.width = 1 := by
  induction derivation with
  | pass _ operand _ =>
      exact Expression.scalar_entries (operand.width_tree.trans (scalars _ (.head _)))
  | chain left sign _ _ right leftHypothesis _ =>
      cases sign with
      | comma =>
          have leftScalars := leftHypothesis rfl fun width member =>
            scalars width (List.mem_append_left _ member)
          have rightScalar : right.tree.width = 1 :=
            right.width_tree.trans (scalars _ (List.mem_append_right _ (.head _)))
          exact List.forall_mem_append.mpr ⟨leftScalars, Expression.scalar_entries rightScalar⟩
      | _ => cases list
  | signed sign => cases sign <;> cases list
  | _ => cases list

/-- The expression of an admissible derivation is flat. -/
theorem flat_tree {level : Level} {derivation : Derivation level}
    (admissible : derivation.Admissible) : derivation.tree.Flat := by
  induction derivation with
  | pass _ operand inductionHypothesis => exact inductionHypothesis admissible
  | chain left sign _ _ right leftHypothesis rightHypothesis =>
      have leftFlat := leftHypothesis admissible.1
      have rightFlat := rightHypothesis admissible.2.1
      cases sign <;> exact ⟨leftFlat, rightFlat⟩
  | signed sign _ _ operand inductionHypothesis =>
      cases sign with
      | not => exact inductionHypothesis admissible.1
      | minus => exact inductionHypothesis admissible
  | atom leaf => cases leaf <;> trivial
  | group _ _ _ _ items inductionHypothesis => exact inductionHypothesis admissible
  | call _ _ _ _ _ _ _ items inductionHypothesis =>
      exact ⟨inductionHypothesis admissible.1, scalar_entries rfl admissible.2.2⟩

end Grammar.Derivation

/-- A formula that is read from a text is flat. -/
theorem flat_of_read {scope : Scope} {text : String} {formula : Expression}
    (read : readExpression scope text = .ok formula) : formula.Flat := by
  obtain ⟨tokens, _, parsed⟩ := bind_eq_ok_iff.mp read
  obtain ⟨derivation, _, admissible, rfl⟩ :=
    (Grammar.sound tokens).1 .expression nofun formula [] (Grammar.parse_eq_ok_iff.mp parsed)
  exact derivation.flat_tree admissible

/-- The formula of a program that is the code of an expression. -/
theorem Program.replay_eq {program : Program} {expression : Expression}
    (steps : program.steps = expression.code) (typed : expression.WellTyped)
    (flat : expression.Flat) (writable : Expression.Writable expression.code) :
    program.replay = .ok (.joined expression.entries) := by
  rw [replay, steps, Expression.run_code typed flat writable]
  simp [Replayed.joined]

end Formulary
