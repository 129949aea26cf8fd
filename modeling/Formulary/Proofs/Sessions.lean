import Formulary.Formula
import Formulary.Proofs.EqualKeys
import Formulary.Proofs.Origins

/-!
# Sessions with formulas and kernels

In a session a host makes formulas, changes them, writes cells, asks for the kernels of formulas and
calls these kernels. Formulas and kernels are numbered in the order in which the session made them,
and the numbers that a host hands over are objects, each of which has a value for good.

Where kernels come from is a parameter. They may come from the cache, or be made anew at every
request; that the answers are the same is what it means for the cache to be invisible.
-/

namespace Formulary

/-! ## Changes of formulas -/

/-- What a host does to a formula. Objects are given by their numbers. -/
inductive Edit
  | defineConstant (name : String) (object : Nat)
  | defineVariable (name : String) (binding : Binding)
  | defineArgument (name : String) (slot width : Int) (isComplex : Bool)
  | parse (source : Source)
  | appendConstant (object : Nat)
  | appendArgument (slot : Int)
  | appendVariable (named : Cell)
  | appendOperator (text : String) (left right : Int)
  | appendFunction (name : String)
  | appendCall (function : Builtin)
  | setResultType (resultType : ResultType)
  | setTolerance (object : Nat)

/-- The formula of an outcome; after a failure it is as it was. -/
def Formula.orKeep (formula : Formula) (outcome : Except Failure Formula) :
    Formula × Option Failure :=
  match outcome with
  | .ok changed => (changed, none)
  | .error failure => (formula, some failure)

/-- The formula after an edit, and why the edit failed. -/
def Formula.edit (objects : Nat → Number) (formula : Formula) : Edit → Formula × Option Failure
  | .defineConstant name object =>
    (formula.defineConstant name (.ofObject objects object), none)
  | .defineVariable name binding => formula.orKeep (formula.defineVariable name binding)
  | .defineArgument name slot width isComplex =>
    formula.orKeep (formula.defineArgument name slot width isComplex)
  | .parse source => formula.parse source
  | .appendConstant object =>
    formula.orKeep ((formula.appendConstant (.ofObject objects object)).mapError .step)
  | .appendArgument slot => formula.orKeep ((formula.appendArgument slot).mapError .step)
  | .appendVariable named => formula.orKeep ((formula.appendVariable named).mapError .step)
  | .appendOperator text left right =>
    formula.orKeep ((formula.appendOperator text left right).mapError .step)
  | .appendFunction name => formula.orKeep ((formula.appendFunction name).mapError .step)
  | .appendCall function => formula.orKeep ((formula.appendCall function).mapError .step)
  | .setResultType resultType => (formula.setResultType resultType, none)
  | .setTolerance object => (formula.setTolerance (.ofObject objects object), none)

/-! ## Sessions -/

/-- What a host asks for in a session. -/
inductive Request
  | create (functions : List Builtin)
  | copy (formula : Nat)
  | edit (formula : Nat) (edit : Edit)
  | write (named : Cell) (value : Number)
  | lower (formula : Nat) (domain : Domain)
  | call (kernel : Nat) (point : List Number)
  | callPrepared (kernel : Nat) (point : List Number)
  | callBatch (kernel : Nat) (points : List Kernel.BatchPoint)
  | forget

/-- What a host sees of a kernel without calling it. -/
structure KernelFacts where
  domain : Domain
  slotCount : Nat
  height : Nat
  cells : List Cell
  deriving DecidableEq

/-- The facts about a kernel. -/
def Kernel.facts (kernel : Kernel) : KernelFacts where
  domain := kernel.domain
  slotCount := kernel.slotCount
  height := kernel.program.shape.height
  cells := kernel.program.cells

/-- What a host is told. -/
inductive Answer
  | done (failure : Option Failure)
  | lowered (facts : KernelFacts)
  | output (outcome : Logged Substitute (Kernel.Output Number))
  | outputs (outcome : Logged Substitute (List (Kernel.Output Number)))
  /-- There is no formula or kernel of the number. -/
  | missing

/-- The kernel of a number that the cache gave. -/
def KernelCache.kernel? (cache : KernelCache) (number : Nat) : Option Kernel :=
  cache.ready[number]?.map ReadyKernel.kernel

/-- A way to come by the kernels of formulas: the state it needs, and what stands for a kernel once
it was asked for. -/
structure KernelSource (σ η : Type) where
  start : σ
  lower : Formula → Domain → σ → Except Failure (η × σ)
  kernel? : σ → η → Option Kernel
  noteUse : η → (KernelUse → KernelUse) → σ → σ
  forget : σ → σ

namespace KernelSource

/-- Kernels from the cache. -/
def cached : KernelSource KernelCache Nat where
  start := {}
  lower formula domain cache := (formula.lower domain cache).mapError .state
  kernel? := KernelCache.kernel?
  noteUse number change cache := cache.noteUse number change
  forget cache := cache.reset

/-- Kernels that are made anew from the program of the formula, in its domain and with its
tolerance. -/
def direct : KernelSource Unit Kernel where
  start := ()
  lower formula domain _ := do
    let program ← formula.usable.mapError .state
    let kernel ← program.lower domain formula.tolerance
    return (kernel, ())
  kernel? _ kernel := some kernel
  noteUse _ _ _ := ()
  forget _ := ()

end KernelSource

/-- The state of a session. -/
structure Session (σ η : Type) where
  formulas : List Formula
  store : Store
  handles : List η
  kernels : σ

/-- The formulas after a request, and why it failed. -/
def Request.change (objects : Nat → Number) (request : Request) (formulas : List Formula) :
    List Formula × Answer :=
  match request with
  | .create functions =>
    let made : Formula := { scope := { symbols := { constants := defaultConstants }, functions } }
    (formulas ++ [made], .done none)
  | .copy number =>
    match formulas[number]? with
    | some formula => (formulas ++ [formula], .done none)
    | none => (formulas, .missing)
  | .edit number given =>
    match formulas[number]? with
    | some formula =>
      let (changed, failure) := formula.edit objects given
      (formulas.set number changed, .done failure)
    | none => (formulas, .missing)
  | _ => (formulas, .done none)

namespace Session

variable {σ η : Type} (source : KernelSource σ η)

/-- A session in which nothing happened yet. -/
def start (store : Store) : Session σ η := ⟨[], store, [], source.start⟩

/-- Asks a kernel of the session. -/
def ask (session : Session σ η) (number : Nat) (answer : Kernel → Answer) : Answer :=
  match session.handles[number]?.bind (source.kernel? session.kernels) with
  | some kernel => answer kernel
  | none => .missing

/-- Notes one more use of a kernel of the session. -/
def noteUse (session : Session σ η) (number : Nat) (change : KernelUse → KernelUse) :
    Session σ η :=
  match session.handles[number]? with
  | some handle => { session with kernels := source.noteUse handle change session.kernels }
  | none => session

/-- One request. -/
def step (objects : Nat → Number) (session : Session σ η) (request : Request) :
    Answer × Session σ η :=
  match request with
  | .write named value =>
    (.done none,
      { session with store := fun cell => if cell = named then value else session.store cell })
  | .lower number domain =>
    match session.formulas[number]? with
    | none => (.missing, session)
    | some formula =>
      match source.lower formula domain session.kernels with
      | .error failure => (.done (some failure), session)
      | .ok (handle, kernels) =>
        let next := { session with handles := session.handles ++ [handle], kernels }
        (next.ask source session.handles.length fun kernel => .lowered kernel.facts, next)
  | .call number point =>
    (session.ask source number fun kernel => .output (kernel.evaluate session.store point), session)
  | .callPrepared number point =>
    (session.ask source number fun kernel => .output (kernel.evaluatePrepared session.store point),
      session.noteUse source number fun use => { use with single := use.single + 1 })
  | .callBatch number points =>
    (session.ask source number fun kernel => .outputs (kernel.evaluateBatch session.store points),
      session.noteUse source number fun use => { use with batch := use.batch + 1 })
  | .forget => (.done none, { session with kernels := source.forget session.kernels })
  | request =>
    let (formulas, answer) := request.change objects session.formulas
    (answer, { session with formulas })

/-- The answers to requests in order. -/
def answers (objects : Nat → Number) : Session σ η → List Request → List Answer
  | _, [] => []
  | session, request :: rest =>
    let (answer, next) := session.step source objects request
    answer :: next.answers objects rest

end Session

/-- The key of the kernel that a request asks for, if it does. -/
def Request.key? (request : Request) (formulas : List Formula) : Option KernelKey :=
  match request with
  | .lower number domain =>
    formulas[number]?.bind fun formula => (formula.kernelKey domain).toOption
  | _ => none

/-- The keys of the kernels that are asked for in a session. -/
def requestedKeys (objects : Nat → Number) : List Formula → List Request → List KernelKey
  | _, [] => []
  | formulas, request :: rest =>
    (request.key? formulas).toList ++
      requestedKeys objects (request.change objects formulas).1 rest

end Formulary
