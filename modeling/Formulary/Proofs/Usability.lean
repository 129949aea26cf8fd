import Formulary.Proofs.Histories

/-!
# Usable formulas

A formula is refused while it has no program, and while the latest source that it was given did not
compile, whatever was appended since. A source counts when it compiled or did not compile; what is
no text leaves everything as it was.

The flag of a formula is thereby a function of its history. All ways to evaluate a formula and the
way to its kernel look at the flag and the program before anything else, so they are refused
together.
-/

namespace Formulary

/-! ## The flag and the history -/

namespace Formula

/-- Only a parse that compiles or does not compile sets the flag. -/
theorem Edited.broken_eq {formula changed : Formula} {edit : Edit} {failure : Option Failure}
    (edited : formula.Edited edit changed failure) :
    changed.broken = ((compiled? (edit, failure)).map not).getD formula.broken := by
  cases edited with
  | defined defines change => simp [defines, withSymbols]
  | appended appends extended =>
      obtain ⟨program, -, rfl⟩ := append_eq_ok extended
      simp [appends]
  | compiled compiles => rfl
  | uncompiled fails => rfl
  | typed resultType => rfl
  | tolerated object tolerance => rfl
  | refused other => simp [compiled?_of_refused other]

end Formula

/-- A formula of a session is broken exactly when the latest source that counts did not compile. -/
theorem Chronicle.broken_iff (objects : Nat → Number) (requests : List Request) :
    (chronicle objects requests).Holds fun formula history =>
      formula.broken = true ↔ history.latest compiled? = some false := by
  refine holds_of_edit (fun _ => by simp [History.latest]) ?_ requests
  intro formula history edit before
  rw [(formula.edited objects edit).broken_eq, History.latest_snoc]
  cases compiled? (edit, (formula.edit objects edit).2) with
  | none => exact before
  | some compiled => cases compiled <;> simp

/-! ## Refusals -/

/-- The ways to use a formula are refused exactly under a condition, and so is the evaluation to one
value, which also needs a result of width one. -/
structure Formula.RefusedIff (formula : Formula) (unusable : Prop) : Prop where
  evaluate : ∀ store domain point,
    (∃ error, formula.evaluate store domain point = .error error) ↔
      unusable ∨ formula.dimension ≠ 1
  evaluateInto : ∀ store domain point buffer width,
    (∃ error, formula.evaluateInto store domain point buffer width = .error error) ↔ unusable
  evaluatePoints : ∀ store domain points,
    (∃ error, formula.evaluatePoints store domain points = .error error) ↔ unusable
  reportPoints : ∀ (σ : Type) store domain (handler : ProgressHandler σ) points state,
    (∃ error, formula.reportPoints store domain handler points state = .error (.state error)) ↔
      unusable
  lower : ∀ domain cache, (∃ error, formula.lower domain cache = .error error) ↔ unusable

namespace Formula

/-- A formula without a program, or one that is broken, gives no program. -/
theorem usable_eq_error_iff (formula : Formula) :
    (∃ error, formula.usable = .error error) ↔
      formula.program.steps = [] ∨ formula.broken = true := by
  unfold usable Program.isEmpty
  cases formula.broken <;> cases formula.program.steps <;> simp

/-- What starts with the program of a formula and cannot be refused afterwards is refused when
there is no program. -/
theorem refused_bind_iff {α β ε : Type} {start : Except ε α} {next : α → β} :
    (∃ error, (start >>= fun found => pure (next found)) = .error error) ↔
      ∃ error, start = .error error := by
  cases start with
  | ok found => exact ⟨nofun, nofun⟩
  | error cause => exact ⟨fun _ => ⟨cause, rfl⟩, fun _ => ⟨cause, rfl⟩⟩

/-- All ways to use a formula begin with its program. -/
theorem refusedIff (formula : Formula) :
    formula.RefusedIff (formula.program.steps = [] ∨ formula.broken = true) := by
  simp only [← usable_eq_error_iff]
  refine ⟨fun store domain point => ?_, fun store domain point buffer width => refused_bind_iff,
    fun store domain points => refused_bind_iff, fun σ store domain handler points state => ?_,
    fun domain cache => ?_⟩
  · refine refused_bind_iff.trans ?_
    unfold usableScalar
    cases formula.usable with
    | error cause => exact ⟨fun _ => .inl ⟨cause, rfl⟩, fun _ => ⟨cause, rfl⟩⟩
    | ok program =>
        by_cases scalar : formula.dimension = 1
        · simp [scalar, bind, Except.bind]
        · simp [scalar, bind, Except.bind]
  · unfold reportPoints
    cases formula.usable with
    | error cause => exact ⟨fun _ => ⟨cause, rfl⟩, fun _ => ⟨cause, rfl⟩⟩
    | ok program =>
        cases formula.text store with
        | error fault => exact ⟨nofun, nofun⟩
        | ok shown => exact ⟨nofun, nofun⟩
  · unfold lower kernelKey
    cases formula.usable with
    | error cause => exact ⟨fun _ => ⟨cause, rfl⟩, fun _ => ⟨cause, rfl⟩⟩
    | ok program => exact ⟨nofun, nofun⟩

end Formula

/-! ## Failures -/

/-- A failed edit of a formula discards the program when a source did not compile, and changes
nothing otherwise. -/
structure Formula.FailsCleanly (objects : Nat → Number) (formula : Formula) (edit : Edit) :
    Prop where
  uncompiled : ∀ error, (formula.edit objects edit).2 = some (.source (.compile error)) →
    (∃ source, edit = .parse source) ∧
      (formula.edit objects edit).1 =
        { formula with program := .empty, resultType := {}, broken := true }
  unchanged : ∀ failure, (formula.edit objects edit).2 = some failure →
    (∀ error, failure ≠ .source (.compile error)) → (formula.edit objects edit).1 = formula

/-- Every edit that fails fails cleanly. -/
theorem Formula.failsCleanly (objects : Nat → Number) (formula : Formula) (edit : Edit) :
    formula.FailsCleanly objects edit := by
  have edited := formula.edited objects edit
  generalize reached : formula.edit objects edit = outcome at edited
  obtain ⟨changed, failed⟩ := outcome
  constructor
  · intro error failing
    rw [reached] at failing ⊢
    cases failing
    cases edited with
    | uncompiled fails => exact ⟨⟨_, rfl⟩, rfl⟩
    | refused other => exact absurd rfl (other error)
  · intro failure failing other
    rw [reached] at failing ⊢
    cases failing
    cases edited with
    | uncompiled fails => exact absurd rfl (other _)
    | refused other => rfl

/-- Every formula of a session is refused exactly when it holds no program or the latest source that
counts did not compile. An edit that fails discards the program when a source did not compile, and
changes nothing otherwise. -/
theorem refused_iff_history (objects : Nat → Number) (requests : List Request) :
    ((chronicle objects requests).Holds fun formula history =>
      formula.RefusedIff
        (formula.program.steps = [] ∨ history.latest compiled? = some false)) ∧
    ∀ formula edit, Formula.FailsCleanly objects formula edit := by
  refine ⟨?_, fun formula edit => formula.failsCleanly objects edit⟩
  refine (Chronicle.broken_iff objects requests).imp fun formula history broken => ?_
  rw [← broken]
  exact formula.refusedIff

/-- A step that is appended does not make up for a source that did not compile, and a copy is as
broken as its original. -/
example :
    (chronicle (fun _ => .int 1) [.create [], .edit 0 (.parse (.text "1 +")),
      .edit 0 (.appendConstant 0), .copy 0]).histories.map (History.latest compiled?) =
        [some false, some false] := by
  decide +kernel

end Formulary
