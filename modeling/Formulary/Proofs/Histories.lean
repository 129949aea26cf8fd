import Formulary.Proofs.Sessions

/-!
# Histories of formulas

Whether a formula can be used, and what its result type says, depends on what was done to it and in
which order. The history of a formula lists its edits with their outcomes, and a copy goes on from
the history of the formula that it was made from.

`Formula.Edited` says once what an edit can do to a formula. What holds of new formulas and is kept
by edits then holds of every formula of a session beside its history.
-/

namespace Formulary

/-! ## What an edit can do -/

/-- Whether an edit enters a name. -/
def Edit.defines : Edit → Bool
  | defineConstant _ _ | defineVariable _ _ | defineArgument _ _ _ _ => true
  | _ => false

/-- Whether an edit appends a step. -/
def Edit.appends : Edit → Bool
  | appendConstant _ | appendArgument _ | appendVariable _ | appendOperator _ _ _
  | appendFunction _ | appendCall _ => true
  | _ => false

/-- The formula after an edit and the reason why the edit failed, by what the edit did. Only a
source that does not compile fails and changes something. -/
inductive Formula.Edited (formula : Formula) : Edit → Formula → Option Failure → Prop
  | defined {edit : Edit} (defines : edit.defines = true) (change : SymbolTables → SymbolTables) :
      Edited formula edit (formula.withSymbols change) none
  | appended {edit : Edit} {step : Step} {changed : Formula} (appends : edit.appends = true)
      (extended : formula.append step = .ok changed) : Edited formula edit changed none
  | compiled {source : Source} {compiled : Compiled}
      (compiles : compile formula.scope source = .ok compiled) :
      Edited formula (.parse source)
        { formula with
            program := compiled.program
            resultType := compiled.resultType
            broken := false }
        none
  | uncompiled {source : Source} {error : CompileError}
      (fails : compile formula.scope source = .error (.source (.compile error))) :
      Edited formula (.parse source) formula.discard (some (.source (.compile error)))
  | typed (resultType : ResultType) :
      Edited formula (.setResultType resultType) (formula.setResultType resultType) none
  | tolerated (object : Nat) (tolerance : Constant) :
      Edited formula (.setTolerance object) (formula.setTolerance tolerance) none
  | refused {edit : Edit} {failure : Failure}
      (other : ∀ error, failure ≠ .source (.compile error)) :
      Edited formula edit formula (some failure)

namespace Formula

/-- Appending a step changes the program and the result type. -/
theorem append_eq_ok {formula changed : Formula} {step : Step}
    (extended : formula.append step = .ok changed) :
    ∃ program, formula.program.append [step] = .ok program ∧
      changed = { formula with
        program
        resultType :=
          { width := max 1 program.shape.height
            isBoolean := isTruthStep step
            isComplex := formula.resultType.isComplex || isComplexStep step } } := by
  unfold append at extended
  split at extended
  case h_1 => cases extended
  case h_2 program found => exact ⟨program, found, (Except.ok.inj extended).symm⟩

variable (objects : Nat → Number) (formula : Formula)

/-- An outcome of appending a step. -/
theorem edited_append {edit : Edit} (appends : edit.appends = true)
    {outcome : Except StepError Formula}
    (extending : ∀ changed, outcome = .ok changed → ∃ step, formula.append step = .ok changed) :
    formula.Edited edit (formula.orKeep (outcome.mapError .step)).1
      (formula.orKeep (outcome.mapError .step)).2 := by
  cases outcome with
  | ok changed =>
      obtain ⟨step, extended⟩ := extending changed rfl
      exact .appended appends extended
  | error cause => exact .refused fun _ same => by cases same

/-- An edit does to a formula what it can do. -/
theorem edited (edit : Edit) :
    formula.Edited edit (formula.edit objects edit).1 (formula.edit objects edit).2 := by
  cases edit with
  | defineConstant name object =>
      simp only [Formula.edit, defineConstant]
      exact .defined rfl _
  | defineVariable name binding =>
      cases binding with
      | cell named =>
          simp only [Formula.edit, defineVariable, orKeep]
          exact .defined rfl _
      | other typeName => exact .refused fun _ same => by cases same
  | defineArgument name slot width isComplex =>
      simp only [Formula.edit, defineArgument]
      cases Argument.declare slot width isComplex with
      | ok declared =>
          simp only [orKeep]
          exact .defined rfl _
      | error cause => exact .refused fun _ same => by cases same
  | parse source =>
      simp only [Formula.edit, Formula.parse]
      split
      case h_1 compiled compiles => exact .compiled compiles
      case h_2 error fails => exact .uncompiled fails
      case h_3 failure other fails =>
          refine .refused fun error same => ?_
          cases failure with
          | source cause =>
              cases same
              exact other error rfl
          | step cause => cases same
  | appendConstant object => exact formula.edited_append rfl fun _ extended => ⟨_, extended⟩
  | appendArgument slot =>
      refine formula.edited_append rfl fun changed extended => ?_
      obtain ⟨step, _, extended⟩ := Outcome.bind_eq_ok_iff.mp extended
      exact ⟨step, extended⟩
  | appendVariable named => exact formula.edited_append rfl fun _ extended => ⟨_, extended⟩
  | appendOperator text left right =>
      refine formula.edited_append rfl fun changed extended => ?_
      obtain ⟨code, _, extended⟩ := Outcome.bind_eq_ok_iff.mp extended
      obtain ⟨step, _, extended⟩ := Outcome.bind_eq_ok_iff.mp extended
      exact ⟨step, extended⟩
  | appendFunction name =>
      refine formula.edited_append rfl fun changed extended => ?_
      unfold appendFunction at extended
      split at extended
      case h_1 function _ => exact ⟨.call function, extended⟩
      case h_2 => cases extended
  | appendCall function => exact formula.edited_append rfl fun _ extended => ⟨_, extended⟩
  | setResultType resultType => exact .typed resultType
  | setTolerance object => exact .tolerated object _

end Formula

/-! ## Histories -/

/-- The edits of a formula in order, each with the reason why it failed, if it did. -/
abbrev History := List (Edit × Option Failure)

/-- What the latest edit says that says anything under a view. -/
def History.latest {α : Type} (view : Edit × Option Failure → Option α) (history : History) :
    Option α :=
  (history.filterMap view).getLast?

/-- One more edit counts first. -/
theorem History.latest_snoc {α : Type} (view : Edit × Option Failure → Option α)
    (history : History) (event : Edit × Option Failure) :
    History.latest view (history ++ [event]) = (view event).or (history.latest view) := by
  rw [latest, List.filterMap_append, List.getLast?_append, latest]
  cases found : view event <;> simp [found]

/-- Whether a parse ended with a program, if it ended with one or with a compile error. -/
def compiled? : Edit × Option Failure → Option Bool
  | (.parse _, none) => some true
  | (.parse _, some (.source (.compile _))) => some false
  | _ => none

/-- Entering a name is no parse. -/
@[simp]
theorem compiled?_of_defines {edit : Edit} (defines : edit.defines = true)
    (failure : Option Failure) : compiled? (edit, failure) = none := by
  cases edit <;> first | rfl | cases defines

/-- Appending a step is no parse. -/
@[simp]
theorem compiled?_of_appends {edit : Edit} (appends : edit.appends = true)
    (failure : Option Failure) : compiled? (edit, failure) = none := by
  cases edit <;> first | rfl | cases appends

/-- A failure that is no compile error does not count. -/
theorem compiled?_of_refused {edit : Edit} {failure : Failure}
    (other : ∀ error, failure ≠ .source (.compile error)) :
    compiled? (edit, some failure) = none := by
  unfold compiled?
  split
  case h_1 impossible => cases impossible
  case h_2 error same => exact absurd (Option.some.inj (Prod.mk.inj same).2) (other error)
  case h_3 => rfl

/-- The histories of the formulas of a session after a request that was answered. -/
def Request.record (request : Request) (answer : Answer) (histories : List History) :
    List History :=
  match request, answer with
  | .create _, _ => histories ++ [[]]
  | .copy number, _ => histories ++ histories[number]?.toList
  | .edit number given, .done failure => histories.modify number (· ++ [(given, failure)])
  | _, _ => histories

/-- The formulas of a session and their histories. -/
structure Chronicle where
  formulas : List Formula := []
  histories : List History := []

/-- The formulas and their histories after one more request. -/
def Chronicle.follow (objects : Nat → Number) (chronicle : Chronicle) (request : Request) :
    Chronicle :=
  let (formulas, answer) := request.change objects chronicle.formulas
  ⟨formulas, request.record answer chronicle.histories⟩

/-- The formulas that the requests of a session leave, and their histories. -/
def chronicle (objects : Nat → Number) (requests : List Request) : Chronicle :=
  requests.foldl (Chronicle.follow objects) {}

namespace Chronicle

variable {objects : Nat → Number} {holds : Formula → History → Prop}

/-- Every formula of a chronicle has something together with its history. -/
def Holds (holds : Formula → History → Prop) (chronicle : Chronicle) : Prop :=
  List.Forall₂ holds chronicle.formulas chronicle.histories

/-- What edits keep is kept by a request. -/
theorem Holds.follow {chronicle : Chronicle} (before : chronicle.Holds holds)
    (created : ∀ functions,
      holds { scope := { symbols := { constants := defaultConstants }, functions } } [])
    (edited : ∀ formula history edit, holds formula history →
      holds (formula.edit objects edit).1 (history ++ [(edit, (formula.edit objects edit).2)]))
    (request : Request) : (chronicle.follow objects request).Holds holds := by
  have lengths := before.length_eq
  have entries := List.forall₂_iff_get.mp before
  cases request with
  | create functions => exact List.rel_append before (.cons (created functions) .nil)
  | copy number =>
      simp only [Holds, Chronicle.follow, Request.change, Request.record]
      by_cases inside : number < chronicle.formulas.length
      · have known : number < chronicle.histories.length := lengths ▸ inside
        rw [List.getElem?_eq_getElem inside, List.getElem?_eq_getElem known]
        exact List.rel_append before (.cons (entries.2 number inside known) .nil)
      · rw [List.getElem?_eq_none (Nat.not_lt.mp inside),
          List.getElem?_eq_none (lengths ▸ Nat.not_lt.mp inside)]
        simpa [Holds] using before
  | edit number given =>
      simp only [Holds, Chronicle.follow, Request.change]
      by_cases inside : number < chronicle.formulas.length
      · have known : number < chronicle.histories.length := lengths ▸ inside
        rw [List.getElem?_eq_getElem inside]
        simp only [Request.record]
        refine List.forall₂_iff_get.mpr ⟨by simpa using lengths, ?_⟩
        intro place left right
        simp only [List.get_eq_getElem, List.getElem_set, List.getElem_modify]
        split
        case isTrue same =>
            subst same
            exact edited _ _ given (entries.2 number inside known)
        case isFalse => exact entries.2 place (by simpa using left) (by simpa using right)
      · rw [List.getElem?_eq_none (Nat.not_lt.mp inside)]
        exact before
  | _ => exact before

/-- What new formulas have and edits keep is had by every formula of a session. -/
theorem holds_of_edit
    (created : ∀ functions,
      holds { scope := { symbols := { constants := defaultConstants }, functions } } [])
    (edited : ∀ formula history edit, holds formula history →
      holds (formula.edit objects edit).1 (history ++ [(edit, (formula.edit objects edit).2)]))
    (requests : List Request) : (chronicle objects requests).Holds holds := by
  suffices kept : ∀ start : Chronicle, start.Holds holds →
      (requests.foldl (Chronicle.follow objects) start).Holds holds from kept {} .nil
  induction requests with
  | nil => exact fun _ before => before
  | cons request rest inductionHypothesis =>
      exact fun start before =>
        inductionHypothesis _ (before.follow created edited request)

end Chronicle

end Formulary
