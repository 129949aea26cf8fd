import Formulary.Proofs.EqualKeys
import Formulary.Proofs.RecentKeys

/-!
# The equality of kernel keys is symmetric and transitive

Numbers of three kinds are compared by their exact values, and a number is as good as the exact
value of its real part and the double of its imaginary part. So equality is symmetric and transitive
across the kinds, although whole numbers are not rounded and doubles are.

A NaN is equal to nothing, but an object of the host is the same constant as itself. That keeps the
sameness of constants transitive as long as the constants are genuine: what is equal to an object is
equal to it wherever it stands.
-/

namespace Formulary

open Binary64 (equalsInt)

namespace Number

/-! ## Exact values -/

/-- The real part of a number as it was given. -/
def exactPart : Number → Int ⊕ Float
  | int value => .inl value
  | real value => .inr value
  | complex value => .inr value.re

/-- Whether the exact values of integers and doubles are equal. -/
def exactEqual : Int ⊕ Float → Int ⊕ Float → Bool
  | .inl left, .inl right => left == right
  | .inl left, .inr right => equalsInt right left
  | .inr left, .inl right => equalsInt left right
  | .inr left, .inr right => left == right

/-- Numbers are equal when both parts are. -/
theorem equal_eq (left right : Number) :
    left.equal right =
      (exactEqual left.exactPart right.exactPart &&
        left.toCartesian.im == right.toCartesian.im) := by
  cases left <;> cases right <;>
    simp only [equal, exactPart, exactEqual, toCartesian, Cartesian.ofReal, Cartesian.equal,
      zero_beq_zero, Bool.true_and, Bool.and_comm, Binary64.beq_comm 0]

theorem exactEqual_symm {left right : Int ⊕ Float} (equal : exactEqual left right = true) :
    exactEqual right left = true := by
  cases left <;> cases right
  case inl.inl => exact beq_iff_eq.mpr (beq_iff_eq.mp equal).symm
  case inr.inr =>
      rw [exactEqual, Binary64.beq_comm]
      exact equal
  all_goals exact equal

theorem exactEqual_trans {left middle right : Int ⊕ Float}
    (first : exactEqual left middle = true) (second : exactEqual middle right = true) :
    exactEqual left right = true := by
  cases middle with
  | inl whole =>
      cases left with
      | inl =>
          cases beq_iff_eq.mp first
          exact second
      | inr value =>
          cases right with
          | inl =>
              cases beq_iff_eq.mp second
              exact first
          | inr other => exact Binary64.beq_of_equalsInt first second
  | inr value =>
      cases left with
      | inl whole =>
          cases right with
          | inl other => exact beq_iff_eq.mpr (Binary64.equalsInt_unique first second)
          | inr other => exact (Binary64.equalsInt_congr_of_beq second whole).symm.trans first
      | inr other =>
          cases right with
          | inl whole => exact (Binary64.equalsInt_congr_of_beq first whole).trans second
          | inr last => exact (Binary64.beq_congr_of_beq second other).symm.trans first

/-! ## Numbers and constants -/

variable {left middle right : Number}

theorem equal_symm (equal : left.equal right = true) : right.equal left = true := by
  rw [equal_eq, Bool.and_eq_true] at equal ⊢
  exact ⟨exactEqual_symm equal.1, by rw [Binary64.beq_comm]; exact equal.2⟩

theorem equal_trans (first : left.equal middle = true) (second : middle.equal right = true) :
    left.equal right = true := by
  rw [equal_eq, Bool.and_eq_true] at first second ⊢
  exact ⟨exactEqual_trans first.1 second.1,
    (Binary64.beq_congr_of_beq second.2 _).symm.trans first.2⟩

end Number

namespace Constant

variable {objects : Nat → Number} {left middle right : Constant}

theorem same_symm (same : left.same right = true) : right.same left = true := by
  rw [same_iff] at same ⊢
  rcases same with equal | ⟨entry, marked⟩
  · exact .inl (Number.equal_symm equal)
  · exact .inr ⟨entry.symm, entry ▸ marked⟩

theorem same_trans (leftGenuine : left.Genuine objects) (middleGenuine : middle.Genuine objects)
    (rightGenuine : right.Genuine objects) (first : left.same middle = true)
    (second : middle.same right = true) : left.same right = true := by
  rw [same_iff] at first second ⊢
  rcases first with equal | ⟨entry, marked⟩
  · rcases second with other | ⟨entry, marked⟩
    · exact .inl (Number.equal_trans equal other)
    · rw [← value_eq_of_entry middleGenuine rightGenuine entry marked]
      exact .inl equal
  · rcases second with other | ⟨other, -⟩
    · rw [value_eq_of_entry leftGenuine middleGenuine entry marked]
      exact .inl other
    · exact .inr ⟨entry.trans other, marked⟩

end Constant

/-! ## Steps, programs and keys -/

/-- The constants that a step pushes are genuine. -/
def Step.Genuine (objects : Nat → Number) (step : Step) : Prop :=
  ∀ constant ∈ step.constant?, constant.Genuine objects

namespace Step

variable {objects : Nat → Number} {left middle right : Step}

theorem same_symm (same : left.same right = true) : right.same left = true := by
  rcases same_cases same with rfl | ⟨first, second, rfl, rfl, constants⟩
  · exact same
  · exact Constant.same_symm constants

theorem same_trans (leftGenuine : left.Genuine objects) (middleGenuine : middle.Genuine objects)
    (rightGenuine : right.Genuine objects) (first : left.same middle = true)
    (second : middle.same right = true) : left.same right = true := by
  rcases same_cases first with rfl | ⟨one, other, rfl, rfl, constants⟩
  · exact second
  rcases same_cases second with rfl | ⟨again, last, same, rfl, more⟩
  · exact first
  · cases same
    exact Constant.same_trans (leftGenuine _ rfl) (middleGenuine _ rfl) (rightGenuine _ rfl)
      constants more

end Step

namespace Program

theorem same_symm {left right : Program} (same : left.same right = true) :
    right.same left = true := by
  refine sameSteps_iff.mpr (List.Forall₂.flip ((sameSteps_iff.mp same).imp ?_))
  exact fun _ _ => Step.same_symm

theorem sameSteps_trans {objects : Nat → Number} {left middle right : List Step}
    (leftGenuine : ∀ step ∈ left, step.Genuine objects)
    (middleGenuine : ∀ step ∈ middle, step.Genuine objects)
    (rightGenuine : ∀ step ∈ right, step.Genuine objects)
    (first : List.Forall₂ (fun step other => step.same other = true) left middle)
    (second : List.Forall₂ (fun step other => step.same other = true) middle right) :
    List.Forall₂ (fun step other => step.same other = true) left right := by
  induction first generalizing right with
  | nil => exact second
  | cons here _ inductionHypothesis =>
      cases second with
      | cons there behind =>
          refine .cons ?_ (inductionHypothesis (fun _ member => leftGenuine _ (.tail _ member))
            (fun _ member => middleGenuine _ (.tail _ member))
            (fun _ member => rightGenuine _ (.tail _ member)) behind)
          exact Step.same_trans (leftGenuine _ (.head _)) (middleGenuine _ (.head _))
            (rightGenuine _ (.head _)) here there

end Program

namespace KernelKey

/-- The constants of a key are genuine. -/
def Genuine (objects : Nat → Number) (key : KernelKey) : Prop :=
  ∀ constant ∈ key.constants, constant.Genuine objects

variable {objects : Nat → Number}

theorem Genuine.steps {key : KernelKey} (genuine : key.Genuine objects) :
    ∀ step ∈ key.program.steps, step.Genuine objects :=
  fun _ member constant pushed =>
    genuine constant (.tail _ (List.mem_filterMap.mpr ⟨_, member, pushed⟩))

theorem same_iff {left right : KernelKey} :
    left.same right = true ↔
      (left.program.same right.program = true ∧ left.domain = right.domain) ∧
        left.tolerance.same right.tolerance = true := by
  simp only [KernelKey.same, Bool.and_eq_true, beq_iff_eq]

/-- Keys with genuine constants are the same as an equivalence demands, up to reflexivity. -/
theorem partialEquivalence (objects : Nat → Number) :
    PartialEquivalence KernelKey.same (Genuine objects) where
  symm _ _ same := by
    rw [same_iff] at same ⊢
    obtain ⟨⟨programs, domains⟩, tolerances⟩ := same
    exact ⟨⟨Program.same_symm programs, domains.symm⟩, Constant.same_symm tolerances⟩
  trans {left middle right} leftGenuine middleGenuine rightGenuine first second := by
    rw [same_iff] at first second ⊢
    obtain ⟨⟨programs, domains⟩, tolerances⟩ := first
    obtain ⟨⟨others, domain⟩, tolerance⟩ := second
    refine ⟨⟨Program.sameSteps_iff.mpr ?_, domains.trans domain⟩, ?_⟩
    · exact Program.sameSteps_trans leftGenuine.steps middleGenuine.steps rightGenuine.steps
        (Program.sameSteps_iff.mp programs) (Program.sameSteps_iff.mp others)
    · exact Constant.same_trans (leftGenuine _ (.head _)) (middleGenuine _ (.head _))
        (rightGenuine _ (.head _)) tolerances tolerance

end KernelKey

end Formulary
