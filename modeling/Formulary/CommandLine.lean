import Formulary.CommandLine.Arguments
import Formulary.Formula

/-!
# The command line

The command line compiles one formula with the arguments and constants it is given, shows the
listing, the formula written out and whether it is constant, and evaluates it at one point if asked
to. A formula that does not compile is shown with the place of the error underlined.
-/

namespace Formulary.CommandLine

/-- The name under which the program reports errors. -/
def programName : String := "render_formula.py"

/-- What a run of the command line leaves. -/
structure Report where
  /-- The exit code. -/
  code : Nat := 0
  /-- Whether the arguments were refused. -/
  refused : Bool := false
  /-- The text on the standard output. -/
  out : String := ""
  /-- The text on the standard error output. -/
  err : String := ""
  degradations : List Degradation := []

/-- Lines as text, each with its end. -/
def printed (lines : List String) : String :=
  String.join (lines.map fun line => line ++ "\n")

/-- The report on arguments that are refused. -/
def refused (error : UsageError) : Report :=
  { code := 2, refused := true, err := printed [s!"{programName}: error: {error.message}"] }

/-- The line that underlines the place of an error: at least one mark. -/
def underline (error : CompileError) : String :=
  String.ofList
    (List.replicate error.start ' ' ++ List.replicate (max 1 (error.stop - error.start)) '^')

/-- The report on a formula that does not compile. -/
def uncompiled (source : String) (error : CompileError) : Report :=
  { code := 2
    err := printed [s!"error: {error.describe}", s!"  {source}", s!"  {underline error}"] }

/-- The tolerance with which a formula is compiled. -/
def Request.compiledTolerance (request : Request) : Constant :=
  match request.tolerance with
  | some (some value) => { value := .real value }
  | _ => defaultTolerance

/-- Defines a constant, which needs a name and a value. -/
def define (formula : Formula) : Option (String × Number) → Except Failure Formula
  | some (name, value) => .ok (formula.defineConstant name { value })
  | none => .error (.missingParts 2)

/-- Registers an argument, which needs a name, a slot and a width. -/
def Request.register (request : Request) (formula : Formula) :
    Option Registered → Except Failure Formula
  | some registered =>
    formula.defineArgument registered.name registered.slot registered.width request.complex
  | none => .error (.missingParts 3)

/-- The formula that a request sets up, before it is compiled. -/
def Request.formula (request : Request) : Except Failure Formula := do
  let start : Formula := { tolerance := request.compiledTolerance }
  let named ← request.constants.foldlM define start
  request.arguments.foldlM request.register named

/-- The domain of a request. -/
def Request.domain (request : Request) : Domain := if request.complex then .complex else .real

/-- The point of a request as numbers of its domain; the real domain takes real parts. -/
def Request.inputs (request : Request) (point : List Cartesian) : List Number :=
  point.map fun value => if request.complex then .complex value else .real value.re

/-- A store for formulas without cells. -/
def noCells : Store := fun _ => .int 0

/-- The lines about a compiled formula. -/
def describe (formula : Formula) : Except Failure (List String) := do
  let listing ← (formula.render noCells).mapError .fault
  let shown ← (formula.text noCells).mapError .fault
  return listing ++ [s!"infix: {shown}", s!"constant: {Formula.flagText formula.isConstant}"]

/-- What an evaluation needs. An option for the tolerance that has no value takes it away. -/
def Request.setting (request : Request) (formula : Formula) (point : List Cartesian) : Setting :=
  let setting := formula.setting noCells (request.inputs point)
  match request.tolerance with
  | some none => { setting with tolerance := none }
  | _ => setting

/-- The line about the value at a point, with the degradations on the way. -/
def valueLine (request : Request) (formula : Formula) (point : List Cartesian) :
    Except Failure (String × List Degradation) := do
  let buffer := List.replicate formula.dimension.toNat (Number.int 0)
  let outcome := Evaluation.evaluate request.domain (request.setting formula point)
    formula.program (some buffer) (some formula.dimension)
  let _ ← outcome.top.mapError Failure.fault
  let values := outcome.buffer.map fun value => (request.domain.entry value).text
  return ("value: " ++ ", ".intercalate values, outcome.degradations)

/-- Carries out a request. -/
def carryOut (request : Request) (source : String) : Except Failure Report := do
  let formula ← request.formula
  match formula.parse (.text source) with
  | (_, some (.source (.compile error))) => return uncompiled source error
  | (_, some failure) => .error failure
  | (formula, none) =>
    let lines ← describe formula
    match request.point with
    | none => return { out := printed lines }
    | some point =>
      let (line, degradations) ← valueLine request formula point
      return { out := printed (lines ++ [line]), degradations }

/-- Runs the command line with the given arguments. -/
def run (arguments : List String) : Except Failure Report :=
  match readArguments arguments with
  | .error error => .ok (refused error)
  | .ok request =>
    match request.help, request.source with
    | false, some source => carryOut request source
    | _, _ => .ok {}

end Formulary.CommandLine
