/-!
# Faults of a run

A run of a program, of a kernel or of a replay ends early when something it needs is not there.
What was logged up to then is kept, unless the run is one that is prepared as a whole.
-/

namespace Formulary

/-- Why a run ends early. -/
inductive Fault
  /-- The input has too few entries. -/
  | shortInput
  /-- The stack is full. -/
  | stackOverrun
  /-- There is nothing on the stack. -/
  | emptyStack
  /-- The output buffer has no place for a value. -/
  | shortOutput
  /-- A number is beyond the range in which it is needed. -/
  | tooLarge
  /-- A complex number was given where a real one is needed. -/
  | notReal
  /-- A kernel leaves no value at all. -/
  | noValues
  /-- There is no tolerance to compare with. -/
  | noTolerance
  /-- The points of a batch, of the given number, do not have the same length. -/
  | raggedPoints (count : Nat)
  /-- The position of a percentile is not a number. -/
  | undefinedPosition
  deriving DecidableEq, Repr

/-- What is said about a fault. -/
def Fault.message : Fault → String
  | shortInput => "the input has too few entries"
  | stackOverrun => "the stack is full"
  | emptyStack => "the stack is empty"
  | shortOutput => "the buffer is too short"
  | tooLarge => "a number is too large"
  | notReal => "a real number is needed"
  | noValues => "Need at least one array to stack."
  | noTolerance =>
    "The truth value of an empty array is ambiguous. "
      ++ "Use `array.size > 0` to check that an array is not empty."
  | raggedPoints count =>
    "setting an array element with a sequence. The requested array has an inhomogeneous shape "
      ++ s!"after 1 dimensions. The detected shape was ({count},) + inhomogeneous part."
  | undefinedPosition => "cannot convert float NaN to integer"

/-- A computation that keeps a log, also when it ends in a fault. -/
structure Logged (ω α : Type) where
  log : List ω
  result : Except Fault α

namespace Logged

variable {ω α β : Type}

/-- A value with an empty log. -/
def value (result : α) : Logged ω α := ⟨[], .ok result⟩

/-- A fault with an empty log. -/
def fault (cause : Fault) : Logged ω α := ⟨[], .error cause⟩

/-- An outcome with an empty log. -/
def ofExcept (result : Except Fault α) : Logged ω α := ⟨[], result⟩

/-- One entry of the log. -/
def note (entry : ω) : Logged ω Unit := ⟨[entry], .ok ()⟩

/-- An entry of the log if a condition holds. -/
def noteIf (condition : Bool) (entry : ω) : Logged ω Unit :=
  if condition then note entry else value ()

/-- A computation and then another, unless the first ends in a fault. -/
def bind (first : Logged ω α) (next : α → Logged ω β) : Logged ω β :=
  match first.result with
  | .error cause => ⟨first.log, .error cause⟩
  | .ok result => ⟨first.log ++ (next result).log, (next result).result⟩

/-- A computation that logs nothing if it ends in a fault. -/
def silentFault (computation : Logged ω α) : Logged ω α :=
  match computation.result with
  | .ok _ => computation
  | .error cause => fault cause

instance : Monad (Logged ω) where
  pure := value
  bind := bind

@[simp] theorem pure_eq (result : α) : (pure result : Logged ω α) = value result := rfl

@[simp] theorem bind_eq (first : Logged ω α) (next : α → Logged ω β) :
    (first >>= next) = first.bind next := rfl

@[simp] theorem value_bind (result : α) (next : α → Logged ω β) :
    (value result : Logged ω α).bind next = next result := by
  simp [value, bind]

@[simp] theorem fault_bind (cause : Fault) (next : α → Logged ω β) :
    (fault cause : Logged ω α).bind next = fault cause := rfl

theorem bind_value (first : Logged ω α) : first.bind value = first := by
  rcases first with ⟨log, result⟩
  cases result <;> simp [bind, value]

theorem bind_assoc {γ : Type} (first : Logged ω α) (second : α → Logged ω β)
    (third : β → Logged ω γ) :
    (first.bind second).bind third = first.bind fun result => (second result).bind third := by
  rcases first with ⟨log, result⟩
  cases result with
  | error cause => rfl
  | ok result =>
    simp only [bind]
    cases (second result).result with
    | error cause => rfl
    | ok middle => simp [List.append_assoc]

end Logged

end Formulary
