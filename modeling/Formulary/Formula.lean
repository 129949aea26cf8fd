import Formulary.Compile
import Formulary.Kernel.Cache
import Formulary.Progress
import Formulary.Replay

/-!
# Formulas

A formula holds the names it may use, a program with its result type, and a tolerance. The program
comes from a source, or is built step by step. After a source that does not compile the formula is
broken, and stays so until a source compiles; what cannot be used says why.
-/

namespace Formulary

/-- Why a formula cannot be used for what was asked. -/
inductive StateError
  | broken
  | noProgram
  | notScalar (dimension : Int)
  deriving DecidableEq, Repr

/-- What is said about a formula that cannot be used. -/
def StateError.message : StateError → String
  | broken => "Formula failed to compile; parse a valid source first"
  | noProgram => "Formula holds no program"
  | notScalar dimension =>
    s!"Formula is vector-valued (dimension {dimension}); use evaluate_into"

/-- Why an operation on a formula fails. -/
inductive Failure
  | source (error : SourceError)
  | notCell (name typeName : String)
  | argument (error : ArgumentError)
  | step (error : StepError)
  | state (error : StateError)
  | emptyKernel
  /-- Something that consists of a number of parts has none of them. -/
  | missingParts (expected : Nat)
  | fault (cause : Fault)

/-- What is said about a failure. -/
def Failure.message : Failure → String
  | source error => error.message
  | notCell name typeName =>
    s!"external variable {Text.quoted name} must be bound to a Cell, got {typeName}"
  | argument error => error.message
  | step error => error.message
  | state error => error.message
  | emptyKernel => "Cannot lower an empty program"
  | missingParts expected => s!"not enough values to unpack (expected {expected}, got 0)"
  | fault cause => cause.message

/-- The failure of a source. -/
def Failure.ofCompile : CompileFailure → Failure
  | .source error => .source error
  | .step error => .step error

/-- What a host binds a variable to. -/
inductive Binding
  | cell (named : Cell)
  /-- Something else, by the name of its type. -/
  | other (typeName : String)

/-- The tolerance of comparisons unless another is given. -/
def defaultTolerance : Constant := { value := .real 1e-14 }

/-- The constants that every formula knows. -/
def defaultConstants : Table Constant := [("pi", { value := .real Cartesian.pi })]

/-- A formula. -/
structure Formula where
  scope : Scope := { symbols := { constants := defaultConstants } }
  tolerance : Constant := defaultTolerance
  program : Program := .empty
  resultType : ResultType := {}
  broken : Bool := false

namespace Formula

/-! ## Names -/

/-- Changes the symbol tables. -/
def withSymbols (formula : Formula) (change : SymbolTables → SymbolTables) : Formula :=
  { formula with scope := { formula.scope with symbols := change formula.scope.symbols } }

/-- Enters a constant. -/
def defineConstant (formula : Formula) (name : String) (value : Constant) : Formula :=
  formula.withSymbols fun tables =>
    { tables with constants := tables.constants.insert name value }

/-- Binds a variable to a cell. -/
def defineVariable (formula : Formula) (name : String) (binding : Binding) :
    Except Failure Formula :=
  match binding with
  | .cell named =>
    .ok (formula.withSymbols fun tables =>
      { tables with cells := tables.cells.insert name named })
  | .other typeName => .error (.notCell name typeName)

/-- Declares an argument. -/
def defineArgument (formula : Formula) (name : String) (slot width : Int) (isComplex : Bool) :
    Except Failure Formula :=
  match Argument.declare slot width isComplex with
  | .ok declared =>
    .ok (formula.withSymbols fun tables =>
      { tables with arguments := tables.arguments.insert name declared })
  | .error error => .error (.argument error)

/-! ## Programs -/

/-- A formula without a program that counts as broken. -/
def discard (formula : Formula) : Formula :=
  { formula with program := .empty, resultType := {}, broken := true }

/-- Compiles a source in place of the program. A source that does not compile breaks the formula;
a source that is no text leaves it as it is. -/
def parse (formula : Formula) (source : Source) : Formula × Option Failure :=
  match compile formula.scope source with
  | .ok compiled =>
    ({ formula with
        program := compiled.program
        resultType := compiled.resultType
        broken := false }, none)
  | .error (.source (.compile error)) => (formula.discard, some (.source (.compile error)))
  | .error failure => (formula, some (Failure.ofCompile failure))

/-- Whether the value of a step is a truth value. -/
def isTruthStep : Step → Bool
  | .operator (.arithmetical _) => false
  | .operator _ => true
  | _ => false

/-- Whether a step pushes a number of the complex kind. -/
def isComplexStep : Step → Bool
  | .constant pushed => pushed.value.isComplex
  | _ => false

/-- Appends a step. The result has the width of the stack, at least one; it is boolean when the
step is, and once complex it stays so. -/
def append (formula : Formula) (step : Step) : Except StepError Formula :=
  match formula.program.append [step] with
  | .error error => .error error
  | .ok program =>
    .ok { formula with
      program
      resultType :=
        { width := max 1 program.shape.height
          isBoolean := isTruthStep step
          isComplex := formula.resultType.isComplex || isComplexStep step } }

/-- Appends a constant. -/
def appendConstant (formula : Formula) (value : Constant) : Except StepError Formula :=
  formula.append (.constant value)

/-- Appends a slot of the point, if slots have that number. -/
def appendArgument (formula : Formula) (slot : Int) : Except StepError Formula := do
  formula.append (← Step.ofSlot slot)

/-- Appends a cell. -/
def appendVariable (formula : Formula) (named : Cell) : Except StepError Formula :=
  formula.append (.external named)

/-- Appends the operator that a text stands for, with the widths of its operands. -/
def appendOperator (formula : Formula) (text : String) (left right : Int) :
    Except StepError Formula := do
  let code ← Step.codeOfText text
  formula.append (← Step.ofCode code left right)

/-- Appends a call of a function. -/
def appendCall (formula : Formula) (function : Builtin) : Except StepError Formula :=
  formula.append (.call function)

/-- Appends a call of the function of a name, if the formula knows it. -/
def appendFunction (formula : Formula) (name : String) : Except StepError Formula :=
  match Builtin.find? formula.scope.functions name with
  | some function => formula.appendCall function
  | none => .error (.unknownFunction name)

/-- Declares another result type for the program. -/
def setResultType (formula : Formula) (resultType : ResultType) : Formula :=
  { formula with resultType }

/-- Sets the tolerance. -/
def setTolerance (formula : Formula) (tolerance : Constant) : Formula :=
  { formula with tolerance }

/-! ## What is known of a formula -/

/-- The width of the result. -/
def dimension (formula : Formula) : Int := formula.resultType.width

/-- Whether no step reads a slot or a cell. -/
def isConstant (formula : Formula) : Bool := !formula.program.shape.usesInputs

/-- The display names that a formula gives. -/
def naming (formula : Formula) (store : Store) : Naming :=
  .ofTables formula.scope.symbols store

/-- A truth value as a capitalised word. -/
def flagText (flag : Bool) : String := if flag then "True" else "False"

/-- The listing of the program followed by a line about the result. -/
def render (formula : Formula) (store : Store) : Except Fault (List String) :=
  let result := formula.resultType
  let summary := s!"result: vecdim={result.width} bool={flagText result.isBoolean} "
    ++ s!"complex={flagText result.isComplex}"
  if formula.program.isWritable then
    .ok (formula.program.listing (formula.naming store) ++ [summary])
  else .error .tooLarge

/-- The program as a formula; without a program, an empty text. -/
def text (formula : Formula) (store : Store) : Except Fault String :=
  if formula.program.isEmpty then .ok ""
  else formula.program.formulaText (formula.naming store)

/-- A description of the formula. -/
def describe (formula : Formula) (store : Store) : Except Fault String := do
  let shown ← formula.text store
  let result := formula.resultType
  let resultText := s!"ResultType(vecdim={result.width}, "
    ++ s!"is_bool={flagText result.isBoolean}, is_complex={flagText result.isComplex})"
  return s!"Formula({Text.quoted shown}, steps={formula.program.size}, result={resultText})"

/-! ## Evaluation -/

/-- The program, if the formula can be evaluated. -/
def usable (formula : Formula) : Except StateError Program :=
  if formula.broken then .error .broken
  else if formula.program.isEmpty then .error .noProgram
  else .ok formula.program

/-- The program, if the formula can be evaluated to one value. -/
def usableScalar (formula : Formula) : Except StateError Program := do
  let program ← formula.usable
  if formula.dimension = 1 then .ok program else .error (.notScalar formula.dimension)

/-- What an evaluation at a point needs. -/
def setting (formula : Formula) (store : Store) (point : List Number) : Setting :=
  { inputs := point, store, tolerance := some formula.tolerance.value }

/-- The outcome of an evaluation that was started, or the reason why it was not. -/
def evaluate (formula : Formula) (store : Store) (domain : Domain) (point : List Number) :
    Except StateError Evaluation.Outcome := do
  let program ← formula.usableScalar
  return Evaluation.evaluate domain (formula.setting store point) program none none

/-- Evaluates into a buffer: the topmost values, as many as asked for, or as the result is wide. -/
def evaluateInto (formula : Formula) (store : Store) (domain : Domain) (point buffer : List Number)
    (width : Option Int) : Except StateError Evaluation.Outcome := do
  let program ← formula.usable
  let width := width.getD formula.dimension
  return Evaluation.evaluate domain (formula.setting store point) program (some buffer) (some width)

/-- The value of a formula at one of several points: a number, or as many as the result is wide. -/
inductive PointValue
  | scalar (value : Number)
  | vector (values : List Number)

/-- The value at one point, with the degradations on the way. -/
def evaluatePoint (formula : Formula) (store : Store) (domain : Domain) (program : Program)
    (point : List Number) : Logged Degradation PointValue :=
  let setting := formula.setting store point
  if formula.dimension = 1 then
    let outcome := Evaluation.evaluate domain setting program none none
    ⟨outcome.degradations, outcome.top.map .scalar⟩
  else
    let buffer := List.replicate formula.dimension.toNat (Number.int 0)
    let outcome :=
      Evaluation.evaluate domain setting program (some buffer) (some formula.dimension)
    ⟨outcome.degradations,
      outcome.top.map fun _ => .vector (outcome.buffer.map domain.entry)⟩

/-- The outcome of an evaluation at several points. -/
structure PointsOutcome (σ : Type) where
  /-- The values of the points that were evaluated, unless one of them failed. -/
  values : Except Fault (List PointValue)
  degradations : List Degradation
  /-- The message about an early end. -/
  notices : List String
  handler : σ

/-- A share of a total in per cent. -/
def percentage (done total : Nat) : Float :=
  100 * Float.ofNat done / Float.ofNat total

/-- The message about an early end. -/
def terminationNotice (done total : Nat) : String :=
  s!"evaluation terminated after {done} of {total} points"

/-- The state of a point loop. -/
structure PointLoop (σ : Type) where
  /-- The values so far, the latest first. -/
  done : List PointValue := []
  degradations : List Degradation := []
  notices : List String := []
  fault : Option Fault := none
  handler : σ

/-- Evaluates points one after the other, as long as the handler agrees and nothing fails. Before
each point the handler is asked whether to stop, and told how far the loop has come. -/
def pointLoop {σ : Type} (handler : ProgressHandler σ) (total : Nat)
    (value : List Number → Logged Degradation PointValue) :
    List (List Number) → PointLoop σ → PointLoop σ
  | [], loop => loop
  | point :: rest, loop =>
    let (stop, asked) := handler.shouldTerminate loop.handler
    if stop then
      { loop with handler := asked, notices := [terminationNotice loop.done.length total] }
    else
      let told := handler.setPercentage (percentage loop.done.length total) asked
      let outcome := value point
      let degradations := loop.degradations ++ outcome.log
      match outcome.result with
      | .error cause => { loop with handler := told, degradations, fault := some cause }
      | .ok found =>
        pointLoop handler total value rest
          { loop with handler := told, degradations, done := found :: loop.done }

/-- Evaluates a program at several points under a title. Whatever happens, the handler is told in
the end how many points were completed, and its message is taken back. -/
def runPoints {σ : Type} (formula : Formula) (store : Store) (domain : Domain)
    (program : Program) (handler : ProgressHandler σ) (title : String)
    (points : List (List Number)) (state : σ) : PointsOutcome σ :=
  let total := points.length
  let loop := pointLoop handler total (formula.evaluatePoint store domain program) points
    { handler := handler.push title state }
  let final := if total = 0 then 100 else percentage loop.done.length total
  let values :=
    match loop.fault with
    | some cause => .error cause
    | none => .ok loop.done.reverse
  { values
    degradations := loop.degradations
    notices := loop.notices
    handler := handler.pop (handler.setPercentage final loop.handler) }

/-- A handler that does not listen. -/
def silentHandler : ProgressHandler Unit where
  push _ state := state
  pop state := state
  setPercentage _ state := state
  shouldTerminate state := (false, state)

/-- Evaluates at several points. -/
def evaluatePoints (formula : Formula) (store : Store) (domain : Domain)
    (points : List (List Number)) : Except StateError (PointsOutcome Unit) := do
  let program ← formula.usable
  return formula.runPoints store domain program silentHandler "" points ()

/-- Evaluates at several points and reports the progress under the text of the formula. A formula
that is not usable, or that has no text, does not call the handler at all. -/
def reportPoints {σ : Type} (formula : Formula) (store : Store) (domain : Domain)
    (handler : ProgressHandler σ) (points : List (List Number)) (state : σ) :
    Except Failure (PointsOutcome σ) := do
  let program ← formula.usable.mapError .state
  let shown ← (formula.text store).mapError .fault
  return formula.runPoints store domain program handler s!"evaluating {shown}" points state

/-! ## Kernels -/

/-- The key of the kernel of a formula. -/
def kernelKey (formula : Formula) (domain : Domain) : Except StateError KernelKey := do
  let program ← formula.usable
  return ⟨program, domain, formula.tolerance⟩

/-- The number of the kernel of a formula, from the cache. -/
def lower (formula : Formula) (domain : Domain) (cache : KernelCache) :
    Except StateError (Nat × KernelCache) := do
  let key ← formula.kernelKey domain
  return cache.lower key

end Formula

/-- The kernel of a program, unless it has no steps. -/
def Program.lower (program : Program) (domain : Domain) (tolerance : Constant) :
    Except Failure Kernel :=
  if program.isEmpty then .error .emptyKernel
  else .ok ⟨program, domain, tolerance.value⟩

end Formulary
