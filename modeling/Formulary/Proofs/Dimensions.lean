import Formulary.Proofs.Histories
import Formulary.Proofs.Totality

/-!
# Dimensions of formulas

The width of a formula's result is kept beside its program. A source that compiles brings both, and
a step that is appended makes the width anew from the height that the program then has; only a
declared result type may say something else. So the width follows the height of the program for as
long as no declaration came after the latest edit that made it anew.
-/

namespace Formulary

/-- A compiled program is as high as its result is wide, and its steps have the widths that their
operators are meant for. -/
theorem shape_of_compile {scope : Scope} {source : Source} {compiled : Compiled}
    (compiles : compile scope source = .ok compiled) :
    compiled.resultType.width = compiled.program.shape.height ∧
      1 ≤ compiled.program.shape.height ∧
      ∀ step ∈ compiled.program.steps, step.WellWidthed := by
  obtain ⟨text, formula, _, _, typed, steps, resultType⟩ := exists_formula compiles
  obtain ⟨shape, extended, height⟩ := Expression.raises_code typed 0 {}
  have known := compiled.program.shape_eq
  rw [steps, Shape.ofSteps, extended] at known
  have exact : compiled.program.shape.height = formula.width := by
    rw [← Except.ok.inj known, height]
    exact Nat.zero_add _
  refine ⟨?_, ?_, ?_⟩
  · rw [resultType, exact]
    rfl
  · rw [exact]
    exact formula.width_pos
  · rw [steps]
    exact Expression.wellWidthed_code typed

/-- Whether the width of the result was declared: it is by a result type, and it is made anew by a
parse that ends with a program or with a compile error, and by a step that is appended. -/
def declared? : Edit × Option Failure → Option Bool
  | (.setResultType _, none) => some true
  | (edit, none) => if edit.appends then some false else (compiled? (edit, none)).map fun _ => false
  | (edit, some failure) => (compiled? (edit, some failure)).map fun _ => false

/-- Entering a name says nothing about the width. -/
theorem declared?_of_defines {edit : Edit} (defines : edit.defines = true) :
    declared? (edit, none) = none := by
  cases edit <;> first | rfl | cases defines

/-- The width of the result is the height of the program, at least one. -/
def Formula.FollowsHeight (formula : Formula) : Prop :=
  formula.dimension = max 1 formula.program.shape.height

/-- After an edit the width is declared, or it follows the height as far as it did so before an edit
that says nothing about it. -/
theorem Formula.Edited.followsHeight {formula changed : Formula} {edit : Edit}
    {failure : Option Failure} (edited : formula.Edited edit changed failure)
    (before : declared? (edit, failure) = none → formula.FollowsHeight) :
    declared? (edit, failure) = some true ∨ changed.FollowsHeight := by
  cases edited with
  | defined defines change => exact .inr (before (declared?_of_defines defines))
  | appended appends extended =>
      obtain ⟨program, -, rfl⟩ := Formula.append_eq_ok extended
      exact .inr (by simp [FollowsHeight, dimension])
  | compiled compiles =>
      obtain ⟨width, some, -⟩ := shape_of_compile compiles
      refine .inr ?_
      simp only [FollowsHeight, dimension]
      omega
  | uncompiled fails => exact .inr rfl
  | typed resultType => exact .inl rfl
  | tolerated object tolerance => exact .inr (before rfl)
  | refused other => exact .inr (before (by rw [declared?, compiled?_of_refused other]; rfl))

/-- In a session the width of a formula follows the height of its program, unless it was declared
later than the latest edit that made it anew. -/
theorem Chronicle.followsHeight (objects : Nat → Number) (requests : List Request) :
    (chronicle objects requests).Holds fun formula history =>
      history.latest declared? ≠ some true → formula.FollowsHeight := by
  refine holds_of_edit (fun _ _ => rfl) ?_ requests
  intro formula history edit before undeclared
  rw [History.latest_snoc] at undeclared
  have follows := (formula.edited objects edit).followsHeight
  cases said : declared? (edit, (formula.edit objects edit).2) with
  | none =>
      rw [said] at undeclared follows
      exact (follows fun _ => before undeclared).resolve_left nofun
  | some declared =>
      rw [said] at undeclared follows
      exact (follows nofun).resolve_left undeclared

end Formulary
