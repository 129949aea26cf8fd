import Formulary.Kernel.Cache
import Formulary.Proofs.Doubles
import Formulary.Proofs.Outcome

/-!
# What the equality of kernel keys means

Two keys are the same when their constants are equal as numbers, and numbers of different kinds may
be. A kernel makes scalars of them, and equal numbers have the same scalar but for the sign of a
zero, which equality does not see. The tolerance is never made a scalar, so the sign of a zero does
not matter there; but kernels refuse a whole number of more than 64 bits that equals a double.

`Kernel.indistinct_of_same` says that there is nothing else: where these agree, the kernels of keys
that are the same cannot be told apart.
-/

namespace Formulary

open Binary64 (equalsInt equalsInt_spec flush ofInt ofInt? signBit)

/-! ## Equal numbers -/

namespace Number

/-- A number that is no whole number, or one that is a double and no subnormal one. -/
def Fits : Number → Prop
  | int whole => ofInt? whole = some (ofInt whole) ∧ flush (ofInt whole) = ofInt whole
  | _ => True

/-- Numbers that fit and have equal parts. -/
structure Alike (left right : Number) : Prop where
  left_fits : left.Fits
  right_fits : right.Fits
  re : (left.toCartesian.re == right.toCartesian.re) = true
  im : (left.toCartesian.im == right.toCartesian.im) = true

theorem Alike.symm {left right : Number} (alike : Alike left right) : Alike right left where
  left_fits := alike.right_fits
  right_fits := alike.left_fits
  re := by rw [Binary64.beq_comm]; exact alike.re
  im := by rw [Binary64.beq_comm]; exact alike.im

theorem alike_of_equalsInt {whole : Int} {value : Cartesian}
    (exact : equalsInt value.re whole = true) (imaginary : (value.im == 0) = true) :
    Alike (int whole) (complex value) := by
  obtain ⟨fits, equal, normal⟩ := equalsInt_spec exact
  refine ⟨⟨fits, normal⟩, trivial, equal, ?_⟩
  rw [Binary64.beq_comm]
  exact imaginary

theorem zero_beq_zero : ((0 : Float) == 0) = true := by decide

/-- Numbers that are equal are the same whole number, or they are alike. -/
theorem same_or_alike {left right : Number} (equal : left.equal right = true) :
    (∃ whole, left = int whole ∧ right = int whole) ∨ Alike left right := by
  cases left with
  | int whole =>
      cases right with
      | int other =>
          obtain rfl : whole = other := by simpa [Number.equal] using equal
          exact .inl ⟨whole, rfl, rfl⟩
      | real value =>
          obtain ⟨fits, same, normal⟩ := equalsInt_spec equal
          exact .inr ⟨⟨fits, normal⟩, trivial, same, zero_beq_zero⟩
      | complex value =>
          obtain ⟨imaginary, exact⟩ := Bool.and_eq_true_iff.mp equal
          exact .inr (alike_of_equalsInt exact imaginary)
  | real value =>
      cases right with
      | int whole =>
          obtain ⟨fits, same, normal⟩ := equalsInt_spec equal
          exact .inr (Alike.symm ⟨⟨fits, normal⟩, trivial, same, zero_beq_zero⟩)
      | real other => exact .inr ⟨trivial, trivial, equal, zero_beq_zero⟩
      | complex other =>
          obtain ⟨imaginary, same⟩ := Bool.and_eq_true_iff.mp equal
          exact .inr ⟨trivial, trivial, same, by rw [Binary64.beq_comm]; exact imaginary⟩
  | complex value =>
      cases right with
      | int whole =>
          obtain ⟨imaginary, exact⟩ := Bool.and_eq_true_iff.mp equal
          exact .inr (alike_of_equalsInt exact imaginary).symm
      | real other =>
          obtain ⟨imaginary, same⟩ := Bool.and_eq_true_iff.mp equal
          exact .inr ⟨trivial, trivial, same, imaginary⟩
      | complex other =>
          obtain ⟨re, im⟩ := Bool.and_eq_true_iff.mp equal
          exact .inr ⟨trivial, trivial, re, im⟩

/-! ### Their scalars -/

/-- The sign bits of the parts of a number that count in a domain. -/
def signs (domain : Domain) (number : Number) : Bool × Bool :=
  match domain with
  | .real => (signBit number.toCartesian.re, false)
  | .complex => (signBit number.toCartesian.re, signBit number.toCartesian.im)

/-- The double that the real domain of kernels makes of a complex number. -/
def keptReal (value : Cartesian) : Float × Bool :=
  if flush value.im != 0 then (0, true) else (value.re, false)

theorem realStored_of_fits {number : Number} (fits : number.Fits) :
    Arithmetic.Flushed.realStored number = .ok (keptReal number.toCartesian) := by
  have lone : ¬(flush 0 != 0) = true := by decide
  have kept : ∀ value : Float, keptReal (.ofReal value) = (value, false) := fun _ => if_neg lone
  cases number with
  | int whole =>
      simp only [Arithmetic.Flushed.realStored, Arithmetic.realStored, Tolerance.doubleOfInt,
        fits.1, Except.map, toCartesian, kept]
  | real value => rw [toCartesian, kept]; rfl
  | complex value =>
      rw [toCartesian, keptReal, Arithmetic.Flushed.realStored]
      split <;> rfl

theorem complexInput_of_fits {number : Number} (fits : number.Fits) :
    Arithmetic.complexInput number = .ok number.toCartesian := by
  cases number with
  | int whole =>
      simp only [Arithmetic.complexInput, Tolerance.doubleOfInt, fits.1, Except.map, toCartesian]
  | _ => rfl

/-- Equal numbers whose zeros have the same signs have the same scalar in a kernel. -/
theorem stored_eq {domain : Domain} {left right : Number} (equal : left.equal right = true)
    (sameSigns : left.signs domain = right.signs domain) :
    domain.flushedArithmetic.stored left = domain.flushedArithmetic.stored right := by
  rcases same_or_alike equal with ⟨whole, rfl, rfl⟩ | alike
  · rfl
  have re : left.toCartesian.re = right.toCartesian.re := by
    refine Binary64.eq_of_beq alike.re ?_
    cases domain <;> exact congrArg Prod.fst sameSigns
  cases domain with
  | real =>
      show Arithmetic.Flushed.realStored left = Arithmetic.Flushed.realStored right
      have imaginary : (flush left.toCartesian.im != 0) = (flush right.toCartesian.im != 0) := by
        rw [bne, bne, Binary64.beq_comm, Binary64.beq_comm (flush right.toCartesian.im),
          Binary64.beq_congr_of_beq (Binary64.flush_congr_of_beq alike.im)]
      rw [realStored_of_fits alike.left_fits, realStored_of_fits alike.right_fits, keptReal,
        keptReal, imaginary, re]
  | complex =>
      have im : left.toCartesian.im = right.toCartesian.im :=
        Binary64.eq_of_beq alike.im (congrArg Prod.snd sameSigns)
      have whole : left.toCartesian = right.toCartesian := by
        cases first : left.toCartesian
        cases second : right.toCartesian
        simp_all
      show (Arithmetic.complexInput left).map _ = (Arithmetic.complexInput right).map _
      rw [complexInput_of_fits alike.left_fits, complexInput_of_fits alike.right_fits, whole]

/-! ### As tolerances -/

/-- Whether a number is a whole number of more than 64 bits. -/
def isWide : Number → Bool
  | int whole => whole.toInt64.toInt != whole
  | _ => false

/-- Whether a double exceeds a tolerance whose parts are given. -/
def exceededBy (value : Float) (bound : Cartesian) : Bool :=
  if flush value == flush bound.re then decide (flush bound.im < 0)
  else decide (flush bound.re < flush value)

/-- Whether a double is kept by a tolerance whose parts are given. -/
def keptBy (value : Float) (bound : Cartesian) : Bool :=
  if flush value == flush bound.re then decide (0 ≤ flush bound.im)
  else decide (flush value ≤ flush bound.re)

theorem flush_zero : flush 0 = 0 := by decide

/-- A tolerance without an imaginary part decides by its real part alone. -/
theorem exceededBy_ofReal (value bound : Float) :
    exceededBy value (.ofReal bound) = decide (flush bound < flush value) := by
  rw [exceededBy, Cartesian.ofReal, flush_zero]
  split
  case isTrue equal =>
      rw [Binary64.beq_comm] at equal
      rw [decide_eq_false (Binary64.not_lt_of_beq equal)]
      decide
  case isFalse => rfl

theorem keptBy_ofReal (value bound : Float) :
    keptBy value (.ofReal bound) = decide (flush value ≤ flush bound) := by
  rw [keptBy, Cartesian.ofReal, flush_zero]
  split
  case isTrue equal =>
      rw [decide_eq_true (Binary64.le_of_beq equal)]
      decide
  case isFalse => rfl

theorem isExceeded_of_fits {number : Number} (fits : number.Fits) (narrow : number.isWide = false)
    (value : Float) :
    Arithmetic.Flushed.isExceeded value number = .ok (exceededBy value number.toCartesian) := by
  cases number with
  | int whole =>
      have indexed : whole.toInt64.toInt = whole := by simpa [isWide] using narrow
      rw [toCartesian, exceededBy_ofReal, fits.2, Arithmetic.Flushed.isExceeded, if_pos indexed]
  | real bound => rw [toCartesian, exceededBy_ofReal]; rfl
  | complex bound =>
      rw [toCartesian, exceededBy, Arithmetic.Flushed.isExceeded]
      split <;> rfl

theorem isKept_of_fits {number : Number} (fits : number.Fits) (narrow : number.isWide = false)
    (value : Float) :
    Arithmetic.Flushed.isKept value number = .ok (keptBy value number.toCartesian) := by
  cases number with
  | int whole =>
      have indexed : whole.toInt64.toInt = whole := by simpa [isWide] using narrow
      rw [toCartesian, keptBy_ofReal, fits.2, Arithmetic.Flushed.isKept, if_pos indexed]
  | real bound => rw [toCartesian, keptBy_ofReal]; rfl
  | complex bound =>
      rw [toCartesian, keptBy, Arithmetic.Flushed.isKept]
      split <;> rfl

/-- Equal tolerances decide alike, unless one of them alone is a whole number of more than 64
bits. -/
theorem decides_congr {left right : Number} (equal : left.equal right = true)
    (widths : left.isWide = right.isWide) (value : Float) :
    Arithmetic.Flushed.isExceeded value left = Arithmetic.Flushed.isExceeded value right ∧
      Arithmetic.Flushed.isKept value left = Arithmetic.Flushed.isKept value right := by
  rcases same_or_alike equal with ⟨whole, rfl, rfl⟩ | alike
  · exact ⟨rfl, rfl⟩
  cases narrow : right.isWide with
  | true =>
      -- Both are whole numbers, and equal ones are the same.
      cases left with
      | int whole =>
          cases right with
          | int other =>
              obtain rfl : whole = other := by simpa [Number.equal] using equal
              exact ⟨rfl, rfl⟩
          | _ => cases narrow
      | _ => exact absurd (widths.trans narrow) nofun
  | false =>
      have re := Binary64.flush_congr_of_beq alike.re
      have im := Binary64.flush_congr_of_beq alike.im
      rw [isExceeded_of_fits alike.left_fits (widths.trans narrow),
        isExceeded_of_fits alike.right_fits narrow,
        isKept_of_fits alike.left_fits (widths.trans narrow),
        isKept_of_fits alike.right_fits narrow, exceededBy, exceededBy, keptBy, keptBy,
        Binary64.beq_congr_of_beq re]
      simp only [Binary64.lt_congr_of_beq re, Binary64.lt_congr_of_beq im,
        Binary64.le_congr_of_beq re, Binary64.le_congr_of_beq im, and_self]

end Number

/-! ## Constants and steps -/

/-- Whether a step pushes a constant, and which. -/
def Step.constant? : Step → Option Constant
  | constant found => some found
  | _ => none

/-- The constants of a program in order. -/
def Program.constants (program : Program) : List Constant :=
  program.steps.filterMap Step.constant?

/-- Two steps are the same, or they push constants that have the same scalar. -/
def Step.Alike {α : Type} (arithmetic : Arithmetic α) (left right : Step) : Prop :=
  left = right ∨ ∃ first second, left = .constant first ∧ right = .constant second ∧
    arithmetic.stored first.value = arithmetic.stored second.value

theorem Step.same_cases {left right : Step} (same : left.same right = true) :
    left = right ∨ ∃ first second, left = .constant first ∧ right = .constant second ∧
      first.same second = true := by
  cases left <;> cases right <;> simp_all [Step.same, Subtype.ext_iff]

namespace Kernel

variable {α : Type} {arithmetic : Arithmetic α}

/-- Two tolerances decide every question of an arithmetic alike. -/
structure SameDecisions (arithmetic : Arithmetic α) (left right : Number) : Prop where
  exceeds : ∀ value, arithmetic.exceeds value left = arithmetic.exceeds value right
  within : ∀ value, arithmetic.within value left = arithmetic.within value right

section Decisions

variable {left right : Number} (same : SameDecisions arithmetic left right)

include same

theorem compare_congr (comparison : Comparison) (first second : α) :
    arithmetic.compare left comparison first second =
      arithmetic.compare right comparison first second := by
  cases comparison <;> simp only [Arithmetic.compare, same.exceeds, same.within]

theorem connect_congr (logical : Logical) (first second : α) :
    arithmetic.connect left logical first second =
      arithmetic.connect right logical first second := by
  simp only [Arithmetic.connect, same.exceeds]

theorem negate_congr (value : α) :
    arithmetic.negate left value = arithmetic.negate right value := by
  simp only [Arithmetic.negate, same.exceeds]

theorem binary_congr (operator : Operator) (first second : α) :
    binary arithmetic left operator first second =
      binary arithmetic right operator first second := by
  cases operator <;> simp only [binary, compare_congr same, connect_congr same]

/-- Steps that are alike do the same to a stack. -/
theorem exec_congr {step other : Step} (alike : step.Alike arithmetic other) (point : List α)
    (cells : CellValues α) (stack : List α) :
    exec arithmetic left point cells step stack =
      exec arithmetic right point cells other stack := by
  rcases alike with rfl | ⟨first, second, rfl, rfl, stored⟩
  · cases step with
    | operator found =>
        cases found <;> simp only [exec, binary_congr same, negate_congr same]
    | _ => rfl
  · simp only [exec, stored]

theorem execAll_congr {steps others : List Step}
    (alike : List.Forall₂ (Step.Alike arithmetic) steps others) (point : List α)
    (cells : CellValues α) (stack : List α) :
    execAll arithmetic left point cells steps stack =
      execAll arithmetic right point cells others stack := by
  induction alike generalizing stack with
  | nil => rfl
  | cons first _ inductionHypothesis =>
      simp only [execAll, exec_congr same first, inductionHypothesis]

end Decisions

/-- In the arithmetic of kernels equal tolerances decide alike, if both are within 64 bits. -/
theorem sameDecisions_of_equal {left right : Number} (equal : left.equal right = true)
    (widths : left.isWide = right.isWide) (domain : Domain) :
    SameDecisions domain.flushedArithmetic left right := by
  cases domain with
  | real =>
      exact ⟨fun value => (Number.decides_congr equal widths value).1,
        fun value => (Number.decides_congr equal widths value.abs).2⟩
  | complex =>
      exact ⟨fun value => (Number.decides_congr equal widths value.re).1,
        fun value => (Number.decides_congr equal widths value.re.abs).2⟩

theorem SameDecisions.lifted {left right : Number} (same : SameDecisions arithmetic left right) :
    SameDecisions arithmetic.lifted left right :=
  ⟨fun _ => same.exceeds _, fun _ => same.within _⟩

theorem alike_lifted {step other : Step} (alike : step.Alike arithmetic other) :
    step.Alike arithmetic.lifted other := by
  rcases alike with rfl | ⟨first, second, rfl, rfl, stored⟩
  · exact .inl rfl
  · refine .inr ⟨first, second, rfl, rfl, ?_⟩
    simp only [Arithmetic.lifted, stored]

end Kernel

/-! ## Programs that are the same -/

theorem Step.extend_congr {left right : Step} (same : left.same right = true) (index : Nat)
    (shape : Shape) : Shape.extend index shape left = Shape.extend index shape right := by
  rcases Step.same_cases same with rfl | ⟨first, second, rfl, rfl, -⟩
  · rfl
  · rfl

theorem Step.noteCell_congr {left right : Step} (same : left.same right = true)
    (cells : List Cell) : Program.noteCell cells left = Program.noteCell cells right := by
  rcases Step.same_cases same with rfl | ⟨first, second, rfl, rfl, -⟩
  · rfl
  · rfl

section SameSteps

variable {left right : List Step}

theorem Program.sameSteps_iff :
    Program.sameSteps left right = true ↔
      List.Forall₂ (fun step other => step.same other = true) left right := by
  induction left generalizing right with
  | nil => cases right <;> simp [Program.sameSteps]
  | cons step rest inductionHypothesis =>
      cases right <;> simp [Program.sameSteps, inductionHypothesis]

variable (same : List.Forall₂ (fun step other => step.same other = true) left right)

include same

theorem Shape.extendAll_congr (index : Nat) (shape : Shape) :
    Shape.extendAll index shape left = Shape.extendAll index shape right := by
  induction same generalizing index shape with
  | nil => rfl
  | cons first _ inductionHypothesis =>
      simp only [Shape.extendAll, Step.extend_congr first, inductionHypothesis]

theorem Program.foldl_noteCell_congr (cells : List Cell) :
    left.foldl Program.noteCell cells = right.foldl Program.noteCell cells := by
  induction same generalizing cells with
  | nil => rfl
  | cons first _ inductionHypothesis =>
      simp only [List.foldl_cons, Step.noteCell_congr first, inductionHypothesis]

end SameSteps

namespace Program

variable {left right : Program}

theorem shape_congr (same : left.same right = true) : left.shape = right.shape := by
  have outcome := left.shape_eq
  rw [Shape.ofSteps, Shape.extendAll_congr (sameSteps_iff.mp same), ← Shape.ofSteps,
    right.shape_eq] at outcome
  exact (Except.ok.inj outcome).symm

theorem cells_congr (same : left.same right = true) : left.cells = right.cells :=
  foldl_noteCell_congr (sameSteps_iff.mp same) []

end Program

/-! ## Constants that a host gives -/

/-- A constant that is no object of the host, or holds what that object is. Objects are marked by
their numbers from one on. -/
def Constant.Genuine (objects : Nat → Number) (constant : Constant) : Prop :=
  ∀ number, constant.entry = number + 1 → constant.value = objects number

/-- The constant for an object of the host. -/
def Constant.ofObject (objects : Nat → Number) (number : Nat) : Constant where
  value := objects number
  entry := number + 1

theorem Constant.genuine_ofObject (objects : Nat → Number) (number : Nat) :
    (Constant.ofObject objects number).Genuine objects := by
  intro other marked
  rw [← Nat.succ.inj marked]
  rfl

theorem Constant.same_iff {left right : Constant} :
    left.same right = true ↔
      left.value.equal right.value = true ∨ left.entry = right.entry ∧ left.entry ≠ 0 := by
  simp only [Constant.same, Bool.or_eq_true, Bool.and_eq_true, beq_iff_eq, bne_iff_ne]

/-- Genuine constants of one object have its value. -/
theorem Constant.value_eq_of_entry {objects : Nat → Number} {left right : Constant}
    (leftGenuine : left.Genuine objects) (rightGenuine : right.Genuine objects)
    (entry : left.entry = right.entry) (marked : left.entry ≠ 0) : left.value = right.value := by
  obtain ⟨number, found⟩ := Nat.exists_eq_succ_of_ne_zero marked
  exact (leftGenuine number found).trans (rightGenuine number (entry.symm.trans found)).symm

/-- Genuine constants that are the same have one value, or values that are equal numbers. -/
theorem Constant.eq_or_equal {objects : Nat → Number} {left right : Constant}
    (leftGenuine : left.Genuine objects) (rightGenuine : right.Genuine objects)
    (same : left.same right = true) :
    left.value = right.value ∨ left.value.equal right.value = true := by
  rcases Constant.same_iff.mp same with equal | ⟨entry, marked⟩
  · exact .inr equal
  · exact .inl (Constant.value_eq_of_entry leftGenuine rightGenuine entry marked)

/-! ## Kernels that cannot be told apart -/

/-- What the equality of keys does not see, but kernels do: the signs of the constants, and whether
the tolerance is a whole number of more than 64 bits. -/
structure KernelKey.Agrees (left right : KernelKey) : Prop where
  signs : left.program.constants.map (fun constant => constant.value.signs left.domain) =
    right.program.constants.map fun constant => constant.value.signs left.domain
  widths : left.tolerance.value.isWide = right.tolerance.value.isWide

instance (left right : KernelKey) : Decidable (left.Agrees right) :=
  decidable_of_iff (_ ∧ _) ⟨fun ⟨signs, widths⟩ => ⟨signs, widths⟩,
    fun agrees => ⟨agrees.signs, agrees.widths⟩⟩

/-- The constants of a key. -/
def KernelKey.constants (key : KernelKey) : List Constant :=
  key.tolerance :: key.program.constants

namespace Kernel

/-- Kernels that cannot be told apart: they have one domain, slots, cells and shape, and give the
same values and warnings. -/
structure Indistinct (left right : Kernel) : Prop where
  domain : left.domain = right.domain
  shape : left.program.shape = right.program.shape
  cells : left.program.cells = right.program.cells
  evaluate : left.evaluate = right.evaluate
  evaluatePrepared : left.evaluatePrepared = right.evaluatePrepared
  evaluateBatch : left.evaluateBatch = right.evaluateBatch

theorem Indistinct.refl (kernel : Kernel) : Indistinct kernel kernel :=
  ⟨rfl, rfl, rfl, rfl, rfl, rfl⟩

theorem Indistinct.symm {left right : Kernel} (same : Indistinct left right) :
    Indistinct right left :=
  ⟨same.domain.symm, same.shape.symm, same.cells.symm, same.evaluate.symm,
    same.evaluatePrepared.symm, same.evaluateBatch.symm⟩

section Runs

variable {α : Type} {arithmetic : Arithmetic α} {left right : Program}
  {bound other : Number}

theorem run_congr (shapes : left.shape = right.shape)
    (alike : List.Forall₂ (Step.Alike arithmetic) left.steps right.steps)
    (same : SameDecisions arithmetic bound other) :
    run arithmetic bound left = run arithmetic other right := by
  funext point cells
  rw [run, run, execAll_congr same alike, shapes]

theorem readCells_congr (cells : left.cells = right.cells) (store : Store) :
    readCells arithmetic store left = readCells arithmetic store right := by
  rw [readCells, readCells, cells]

end Runs

/-- Programs whose steps are alike are kernels that cannot be told apart. -/
theorem indistinct_of_alike {domain : Domain} {left right : Program} {bound other : Number}
    (shapes : left.shape = right.shape) (cells : left.cells = right.cells)
    (alike : List.Forall₂ (Step.Alike domain.flushedArithmetic) left.steps right.steps)
    (same : SameDecisions domain.flushedArithmetic bound other) :
    Indistinct ⟨left, domain, bound⟩ ⟨right, domain, other⟩ := by
  have runs := run_congr shapes alike same
  have lifted := run_congr shapes (alike.imp fun _ _ => alike_lifted) same.lifted
  have evaluate : Kernel.evaluate ⟨left, domain, bound⟩ = Kernel.evaluate ⟨right, domain, other⟩ :=
    by
      funext store numbers
      simp only [Kernel.evaluate, runs, readCells_congr cells]
  have batch : Kernel.runBatch ⟨left, domain, bound⟩ = Kernel.runBatch ⟨right, domain, other⟩ := by
    funext store points
    rw [runBatch, runBatch]
    refine congrArg (Logged.bind _) (funext fun scalars => ?_)
    cases scalars with
    | nil => simp only [lifted, readCells_congr cells]
    | cons => simp only [runs, readCells_congr cells]
  refine ⟨rfl, shapes, cells, evaluate, ?_, ?_⟩
  · funext store numbers
    rw [evaluatePrepared, evaluatePrepared, evaluate]
  · funext store points
    rw [evaluateBatch, evaluateBatch, batch]

end Kernel

/-- Steps that are the same are alike where the signs of their constants agree. -/
theorem Program.alike_of_same {domain : Domain} {objects : Nat → Number} {left right : List Step}
    (same : List.Forall₂ (fun step other => step.same other = true) left right)
    (leftGenuine : ∀ constant ∈ left.filterMap Step.constant?, constant.Genuine objects)
    (rightGenuine : ∀ constant ∈ right.filterMap Step.constant?, constant.Genuine objects)
    (signs : (left.filterMap Step.constant?).map (fun constant => constant.value.signs domain) =
      (right.filterMap Step.constant?).map fun constant => constant.value.signs domain) :
    List.Forall₂ (Step.Alike domain.flushedArithmetic) left right := by
  induction same with
  | nil => exact .nil
  | @cons step other rest others first _ inductionHypothesis =>
      rcases Step.same_cases first with rfl | ⟨found, twin, rfl, rfl, twins⟩
      · refine .cons (.inl rfl) ?_
        cases step with
        | constant found =>
            exact inductionHypothesis (fun _ member => leftGenuine _ (.tail _ member))
              (fun _ member => rightGenuine _ (.tail _ member)) (List.cons.inj signs).2
        | _ => exact inductionHypothesis leftGenuine rightGenuine signs
      · obtain ⟨signsHere, signsBehind⟩ := List.cons.inj signs
        refine .cons (.inr ⟨found, twin, rfl, rfl, ?_⟩)
          (inductionHypothesis (fun _ member => leftGenuine _ (.tail _ member))
            (fun _ member => rightGenuine _ (.tail _ member)) signsBehind)
        rcases Constant.eq_or_equal (leftGenuine _ (.head _)) (rightGenuine _ (.head _)) twins with
          one | equal
        · rw [one]
        · exact Number.stored_eq equal signsHere

/-- The kernels of keys that are the same cannot be told apart, where the keys agree in what
equality does not see. -/
theorem Kernel.indistinct_of_same {objects : Nat → Number} {left right : KernelKey}
    (leftGenuine : ∀ constant ∈ left.constants, constant.Genuine objects)
    (rightGenuine : ∀ constant ∈ right.constants, constant.Genuine objects)
    (same : left.same right = true) (agrees : left.Agrees right) :
    Indistinct left.kernel right.kernel := by
  obtain ⟨⟨programs, domains⟩, tolerances⟩ := by
    simpa only [KernelKey.same, Bool.and_eq_true] using same
  obtain ⟨program, domain, tolerance⟩ := left
  obtain ⟨other, otherDomain, otherTolerance⟩ := right
  obtain rfl : domain = otherDomain := eq_of_beq domains
  refine indistinct_of_alike (Program.shape_congr programs) (Program.cells_congr programs)
    (Program.alike_of_same (Program.sameSteps_iff.mp programs)
      (fun _ member => leftGenuine _ (.tail _ member))
      (fun _ member => rightGenuine _ (.tail _ member)) agrees.signs) ?_
  rcases Constant.eq_or_equal (leftGenuine _ (.head _)) (rightGenuine _ (.head _)) tolerances with
    one | equal
  · rw [show tolerance.value = otherTolerance.value from one]
    exact ⟨fun _ => rfl, fun _ => rfl⟩
  · exact sameDecisions_of_equal equal agrees.widths domain

end Formulary
