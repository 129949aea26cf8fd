import Formulary.Formula

/-!
# Workloads

A workload is a formula that is typical of some use, with the arguments it declares. One cell is
bound to the name `g` in all of them.
-/

namespace Formulary

/-- An argument of a workload. -/
structure WorkloadArgument where
  name : String
  slot : Nat
  width : Nat

/-- A typical formula. -/
structure Workload where
  name : String
  source : String
  arguments : List WorkloadArgument
  slotCount : Nat

namespace Workload

/-- All workloads. -/
def all : List Workload :=
  [{ name := "polynomial"
     source := "3*x*x*x - 2*x*x + x - 7"
     arguments := [⟨"x", 1, 1⟩]
     slotCount := 1 },
   { name := "trig_mix"
     source := "sin(x)*cos(y) + atan2(y, x)"
     arguments := [⟨"x", 1, 1⟩, ⟨"y", 2, 1⟩]
     slotCount := 2 },
   { name := "indicator"
     source := "(x > 0 and y < 1) * exp(0-x*x) + g"
     arguments := [⟨"x", 1, 1⟩, ⟨"y", 2, 1⟩]
     slotCount := 2 },
   { name := "vector_dot"
     source := "v*w + 2*(v + w)*(v*v)"
     arguments := [⟨"v", 1, 3⟩, ⟨"w", 4, 3⟩]
     slotCount := 6 },
   { name := "bessel"
     source := "besselj0(x) + bessely1(x + 1)"
     arguments := [⟨"x", 1, 1⟩]
     slotCount := 1 }]

/-- The workload of a name. -/
def find? (name : String) : Option Workload :=
  all.find? fun workload => workload.name == name

/-- The cell that all workloads share. -/
def sharedCell : Cell := ⟨0⟩

/-- What the shared cell holds. -/
def store : Store := fun _ => .real 0.25

/-- The compiled formula of a workload. -/
def build (workload : Workload) : Except Failure Formula := do
  let start ← ({} : Formula).defineVariable "g" (.cell sharedCell)
  let declared ← workload.arguments.foldlM
    (fun formula argument =>
      formula.defineArgument argument.name argument.slot argument.width false)
    start
  match declared.parse (.text workload.source) with
  | (formula, none) => return formula
  | (_, some failure) => .error failure

end Workload

end Formulary
