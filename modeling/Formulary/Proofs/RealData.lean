import Formulary.Proofs.KernelRun

/-!
# Real data in both domains

Where a program finds real numbers only, its two domains differ in the scalars alone. A complex
number embeds a double when that is its real part and its imaginary part is a zero of either sign.
`answer_embeds` says that a step goes from operands that are embedded to results that are, provided
that the operations it asks of the arithmetic do. Comparisons, truth values, signs and the unit step
need no such proviso: they see the real parts, and nothing is ever replaced.

What `Kept` asks of products, quotients and functions is no law of complex arithmetic on doubles. A
product may lose the sign of a zero, and an infinite factor leaves an imaginary part that is no
number. So it is asked of the operations that occur, each in its place in both runs.
-/

namespace Formulary

open Arithmetic (real complex)

/-! ## Doubles among the complex numbers -/

/-- A complex number embeds a double: that is its real part, and there is no imaginary part but a
zero of either sign. -/
structure Embeds (number : Float) (value : Cartesian) : Prop where
  re_eq : value.re = number
  im_zero : value.im = 0 ∨ value.im = -0

instance (number : Float) (value : Cartesian) : Decidable (Embeds number value) :=
  decidable_of_iff (value.re = number ∧ (value.im = 0 ∨ value.im = -0))
    ⟨fun ⟨re_eq, im_zero⟩ => ⟨re_eq, im_zero⟩, fun embeds => ⟨embeds.re_eq, embeds.im_zero⟩⟩

namespace Embeds

variable {number other : Float} {value further : Cartesian}

theorem ofReal (number : Float) : Embeds number (.ofReal number) := ⟨rfl, .inl rfl⟩

/-- The opposite numbers are embedded; the zeros change their sign. -/
theorem neg (embeds : Embeds number value) : Embeds (real.neg number) (complex.neg value) where
  re_eq := congrArg Neg.neg embeds.re_eq
  im_zero := by
    show -value.im = 0 ∨ -value.im = -0
    rcases embeds.im_zero with zero | zero
    · exact .inr (by rw [zero])
    · exact .inl (by rw [zero]; decide)

/-- Sums are embedded, whatever the signs of the zeros. -/
theorem add (left : Embeds number value) (right : Embeds other further) :
    Embeds (real.add number other) (complex.add value further) where
  re_eq := congrArg₂ HAdd.hAdd left.re_eq right.re_eq
  im_zero := by
    show value.im + further.im = 0 ∨ value.im + further.im = -0
    rcases left.im_zero with first | first <;> rcases right.im_zero with second | second <;>
      rw [first, second] <;> decide

/-- Differences are embedded, whatever the signs of the zeros. -/
theorem sub (left : Embeds number value) (right : Embeds other further) :
    Embeds (real.sub number other) (complex.sub value further) where
  re_eq := congrArg₂ HSub.hSub left.re_eq right.re_eq
  im_zero := by
    show value.im - further.im = 0 ∨ value.im - further.im = -0
    rcases left.im_zero with first | first <;> rcases right.im_zero with second | second <;>
      rw [first, second] <;> decide

/-- What embeds a double has no imaginary part in the eyes of the complex domain. -/
theorem isImaginary_eq (embeds : Embeds number value) : complex.isImaginary value = false := by
  show (value.im != 0) = false
  rcases embeds.im_zero with zero | zero <;> rw [zero] <;> decide

theorem realPart_eq (embeds : Embeds number value) :
    complex.realPart value = .ofReal number :=
  congrArg Cartesian.ofReal embeds.re_eq

/-- Truth values are embedded. -/
theorem truth (numbers : List Float) (values : List Cartesian) (flag : Bool) :
    Embeds (real.truth numbers flag) (complex.truth values flag) :=
  .ofReal _

end Embeds

/-! ## Operations that keep real values -/

/-- The results of an operation are embedded when its operands are. Whatever else is asked of an
arithmetic is a question about real parts. -/
def Operation.Keeps : Operation Float → Operation Cartesian → Prop
  | .apply operator left right, .apply other leftValue rightValue =>
    Embeds left leftValue → Embeds right rightValue →
      Embeds (real.apply operator left right) (complex.apply other leftValue rightValue)
  | .call function arguments, .call other values =>
    List.Forall₂ Embeds arguments values →
      Embeds (real.call function arguments) (complex.call other values)
  | _, _ => True

instance (operation : Operation Float) (other : Operation Cartesian) :
    Decidable (operation.Keeps other) := by
  unfold Operation.Keeps
  split <;> infer_instance

/-- Sums and differences of doubles keep real values, whatever their operands are. -/
theorem Operation.keeps_sum {operator : Arithmetical} (sum : operator = .add ∨ operator = .sub)
    (left right : Float) (leftValue rightValue : Cartesian) :
    (Operation.apply operator left right).Keeps (.apply operator leftValue rightValue) := by
  intro first second
  rcases sum with rfl | rfl
  · exact first.add second
  · exact first.sub second

/-- Operations of the two domains keep real values, each one beside that in its place. -/
def Kept (numbers : List (Operation Float)) (values : List (Operation Cartesian)) : Prop :=
  ∀ pair ∈ numbers.zip values, pair.1.Keeps pair.2

namespace Kept

theorem cons_iff {first : Operation Float} {second : Operation Cartesian}
    {numbers : List (Operation Float)} {values : List (Operation Cartesian)} :
    Kept (first :: numbers) (second :: values) ↔ first.Keeps second ∧ Kept numbers values := by
  simp [Kept]

theorem append_iff {numbers moreNumbers : List (Operation Float)}
    {values moreValues : List (Operation Cartesian)} (equal : numbers.length = values.length) :
    Kept (numbers ++ moreNumbers) (values ++ moreValues) ↔
      Kept numbers values ∧ Kept moreNumbers moreValues := by
  simp only [Kept, List.zip_append equal, List.forall_mem_append]

end Kept

/-! ## Vectors -/

namespace Embeds

open Expression (component)

variable {numbers moreNumbers : List Float} {values moreValues : List Cartesian}

/-- Entries are embedded, and so are the zeros behind them. -/
theorem getD (embedded : List.Forall₂ Embeds numbers values) (index : Nat) :
    Embeds (numbers.getD index real.zero) (values.getD index complex.zero) := by
  induction embedded generalizing index with
  | nil => exact .ofReal 0
  | cons first rest inductionHypothesis =>
      cases index with
      | zero => exact first
      | succ index => exact inductionHypothesis index

/-- The components that take part in an operation are embedded. -/
theorem component (embedded : List.Forall₂ Embeds numbers values) (index : Nat) :
    Embeds (component real.zero numbers index) (component complex.zero values index) := by
  rw [Expression.component, Expression.component, embedded.length_eq]
  split
  · cases embedded with
    | nil => exact .ofReal 0
    | cons first rest => exact first
  · exact getD embedded index

/-- A sum of products goes on from a total that is embedded. -/
theorem dot (left : List.Forall₂ Embeds numbers values)
    (right : List.Forall₂ Embeds moreNumbers moreValues) {total : Float} {sum : Cartesian}
    (start : Embeds total sum)
    (kept : Kept (dotOperations real total (numbers.zip moreNumbers))
      (dotOperations complex sum (values.zip moreValues))) :
    Embeds
      ((numbers.zip moreNumbers).foldl
        (fun total factors => real.add total (real.mul factors.1 factors.2)) total)
      ((values.zip moreValues).foldl
        (fun total factors => complex.add total (complex.mul factors.1 factors.2)) sum) := by
  induction left generalizing moreNumbers moreValues total sum with
  | nil => exact start
  | cons first rest inductionHypothesis =>
      cases right with
      | nil => exact start
      | cons second others =>
          obtain ⟨product, sums⟩ := Kept.cons_iff.mp kept
          obtain ⟨_, later⟩ := Kept.cons_iff.mp sums
          exact inductionHypothesis others (start.add (product first second)) later

/-- A vector operator gives values that are embedded when it does in every component. -/
theorem vector {operator : VectorOperator} (left : List.Forall₂ Embeds numbers values)
    (right : List.Forall₂ Embeds moreNumbers moreValues) (leftSome : 0 < numbers.length)
    (rightSome : 0 < moreNumbers.length)
    (kept : Kept (vectorOperations real operator numbers moreNumbers)
      (vectorOperations complex operator values moreValues)) :
    List.Forall₂ Embeds (Kernel.vector real operator numbers moreNumbers)
      (Kernel.vector complex operator values moreValues) := by
  have leftLength := left.length_eq
  have rightLength := right.length_eq
  unfold vectorOperations at kept
  split at kept
  case isTrue product =>
      rw [Kernel.vector, Kernel.vector, if_pos product, if_pos product]
      exact .cons (dot left right (.ofReal 0) kept) .nil
  case isFalse noDot =>
      rw [← leftLength, ← rightLength, Kept, List.zip_map'] at kept
      rw [Expression.vector_eq_combine real operator noDot leftSome rightSome,
        Expression.vector_eq_combine complex operator noDot (by omega) (by omega),
        Expression.combine, Expression.combine, ← leftLength, ← rightLength,
        List.forall₂_map_left_iff, List.forall₂_map_right_iff, List.forall₂_same]
      intro index inside
      exact kept _ (List.mem_map_of_mem inside) (component left index) (component right index)

end Embeds

/-! ## Steps -/

/-- What a step loads or reads is of a real kind. -/
def Step.ReadsReal (setting : Setting) : Step → Prop
  | .constant found => found.value.isComplex = false
  | .argument slot => ∀ number ∈ setting.inputs[slot.val - 1]?, number.isComplex = false
  | .external cell => (setting.store cell).isComplex = false
  | _ => True

namespace Evaluation

open Expression (compared)

variable {setting : Setting} {index : Nat} {numbers : List Float} {values : List Cartesian}

/-- A number of a real kind is loaded in both domains, and nothing is said about it. -/
theorem load_embeds (place : Place) {number : Number} (isReal : number.isComplex = false) :
    Logged.Related Embeds (load real index place number) (load complex index place number) := by
  cases number with
  | complex value => cases isReal
  | real value => exact .value [] (.ofReal value)
  | int value =>
      simp only [load, real, complex, Arithmetic.realStored, Arithmetic.complexInput]
      cases Tolerance.doubleOfInt value with
      | error cause => exact .fault [] cause
      | ok found => exact .value [] (.ofReal found)

/-- A slot that holds a number of a real kind, or none, is read alike in both domains. -/
theorem input_embeds {slot : Nat}
    (isReal : ∀ number ∈ setting.inputs[slot - 1]?, number.isComplex = false) :
    Logged.Related Embeds (Logged.ofExcept (input real setting slot) : Logged Degradation Float)
      (Logged.ofExcept (input complex setting slot)) := by
  unfold input
  cases found : setting.inputs[slot - 1]? with
  | none => exact .fault [] .shortInput
  | some number =>
      have kind := isReal number found
      cases number with
      | complex value => cases kind
      | real value => exact .value [] (.ofReal value)
      | int value =>
          simp only [real, complex, Arithmetic.realInput, Arithmetic.complexInput]
          cases Tolerance.doubleOfInt value with
          | error cause => exact .fault [] cause
          | ok found => exact .value [] (.ofReal found)

section Operators

variable {left right : Float} {leftValue rightValue : Cartesian}

/-- Nothing is noted about an operand that embeds a double. -/
theorem realOperand_embeds (operator : Operator) (embeds : Embeds left leftValue) :
    realOperand complex index operator leftValue = .value (.ofReal left) := by
  rw [realOperand, embeds.isImaginary_eq, embeds.realPart_eq]
  rfl

/-- Nothing takes the place of an operand that embeds a double. -/
theorem comparedOperand_embeds (operator : Operator) (embeds : Embeds left leftValue) :
    comparedOperand complex index operator leftValue = .value (.ofReal left) := by
  rw [comparedOperand, embeds.isImaginary_eq, embeds.realPart_eq]
  rfl

/-- A question that the real domain asks about doubles is the one that the complex domain asks. -/
theorem compare_ofReal (bound : Number) (comparison : Comparison) (left right : Float) :
    complex.compare bound comparison (.ofReal left) (.ofReal right) =
      real.compare bound comparison left right := by
  cases comparison <;> rfl

/-- A truth value is embedded, whatever the outcome of the question is. -/
theorem truth_related (answer : Logged Degradation Bool) (numbers : List Float)
    (values : List Cartesian) :
    Logged.Related Embeds (answer.bind fun flag => .value (real.truth numbers flag))
      (answer.bind fun flag => .value (complex.truth values flag)) := by
  refine (Logged.Related.refl answer).bind ?_
  rintro flag _ rfl
  exact .value [] (Embeds.truth numbers values flag)

/-- The opposite of a truth value is embedded. -/
theorem negation_embeds (embeds : Embeds left leftValue) :
    Logged.Related Embeds (negation real setting.tolerance index left)
      (negation complex setting.tolerance index leftValue) := by
  simp only [negation, realOperand_embeds .not embeds]
  exact truth_related _ [left] [leftValue]

/-- The result of a scalar operator is embedded when the arithmetical operators keep real values. -/
theorem binary_embeds {operator : Operator} (first : Embeds left leftValue)
    (second : Embeds right rightValue)
    (kept : Kept ((Step.operator operator).operations real setting [left, right])
      ((Step.operator operator).operations complex setting [leftValue, rightValue])) :
    Logged.Related Embeds (binary real setting.tolerance index operator left right)
      (binary complex setting.tolerance index operator leftValue rightValue) := by
  cases operator with
  | not => exact .value [] first
  | arithmetical found => exact .value [] ((Kept.cons_iff.mp kept).1 first second)
  | logical found =>
      simp only [binary, realOperand_embeds _ first, realOperand_embeds _ second]
      exact truth_related _ [left, right] [leftValue, rightValue]
  | comparison found =>
      have same : ∀ bound, complex.compare bound found (.ofReal left) (.ofReal right) =
          real.compare bound found left right :=
        fun bound => compare_ofReal bound found left right
      simp only [binary, comparedOperand_embeds _ first, comparedOperand_embeds _ second,
        first.isImaginary_eq, Logged.bind_eq, Logged.value_bind, same]
      exact truth_related _ [left, right] [leftValue, rightValue]

end Operators

/-- The results of a step are embedded when its operands are and its operations keep real values. -/
theorem answer_embeds {step : Step} (operands : List.Forall₂ Embeds numbers values)
    (exact : numbers.length = step.operands) (isReal : step.ReadsReal setting)
    (kept : Kept (step.operations real setting numbers)
      (step.operations complex setting values)) :
    Logged.Related (List.Forall₂ Embeds) (answer real setting index step numbers)
      (answer complex setting index step values) := by
  have single : ∀ {left : Logged Degradation Float} {right : Logged Degradation Cartesian},
      Logged.Related Embeds left right →
        Logged.Related (List.Forall₂ Embeds) (left.bind fun value => .value [value])
          (right.bind fun value => .value [value]) := by
    intro left right related
    exact related.bind fun number value embeds => .value [] (.cons embeds .nil)
  cases step with
  | constant found => exact single (load_embeds .constant isReal)
  | argument slot => exact single (input_embeds isReal)
  | external cell => exact single (load_embeds .variable isReal)
  | call function =>
      refine .value [] (.cons ?_ .nil)
      by_cases unit : function = .step
      · subst unit
        obtain ⟨number, rfl⟩ := List.length_eq_one_iff.mp exact
        obtain ⟨value, rfl⟩ := List.length_eq_one_iff.mp operands.length_eq.symm
        obtain ⟨embeds, _⟩ := List.forall₂_cons.mp operands
        show Embeds (Arithmetic.realStep number) (.ofReal (Arithmetic.realStep value.re))
        rw [embeds.re_eq]
        exact .ofReal _
      · have listed : ∀ {α : Type} (arithmetic : Arithmetic α) (arguments : List α),
            (Step.call function).operations arithmetic setting arguments =
              [.call function arguments] := by
          intro α arithmetic arguments
          cases function <;> first | rfl | exact absurd rfl unit
        rw [listed, listed] at kept
        exact (Kept.cons_iff.mp kept).1 operands
  | negate width =>
      refine .value [] ?_
      rw [List.forall₂_map_left_iff, List.forall₂_map_right_iff]
      exact operands.imp fun _ _ embeds => embeds.neg
  | vector operator left right =>
      have whole : numbers.length = left.val + right.val := exact
      have leftPositive := left.property
      have rightPositive := right.property
      exact .value [] (Embeds.vector (List.forall₂_take left.val operands)
        (List.forall₂_drop left.val operands) (by simp; omega) (by simp; omega) kept)
  | operator operator =>
      cases operator with
      | not =>
          obtain ⟨number, rfl⟩ := List.length_eq_one_iff.mp exact
          obtain ⟨value, rfl⟩ := List.length_eq_one_iff.mp operands.length_eq.symm
          obtain ⟨embeds, _⟩ := List.forall₂_cons.mp operands
          exact single (negation_embeds embeds)
      | _ =>
          obtain ⟨left, right, rfl⟩ := List.length_eq_two.mp exact
          obtain ⟨leftValue, rightValue, rfl⟩ := List.length_eq_two.mp operands.length_eq.symm
          obtain ⟨first, rest⟩ := List.forall₂_cons.mp operands
          obtain ⟨second, _⟩ := List.forall₂_cons.mp rest
          exact single (binary_embeds first second kept)

/-- A sum of products asks as many operations in either domain. -/
theorem length_dotOperations {α : Type} (arithmetic : Arithmetic α) (total : α)
    (factors : List (α × α)) :
    (dotOperations arithmetic total factors).length = 2 * factors.length := by
  induction factors generalizing total with
  | nil => rfl
  | cons pair rest inductionHypothesis =>
      obtain ⟨left, right⟩ := pair
      simp only [dotOperations, List.length_cons, inductionHypothesis]
      omega

/-- A step asks as many operations in either domain. -/
theorem length_operations {step : Step} (operands : List.Forall₂ Embeds numbers values)
    (exact : numbers.length = step.operands) :
    (step.operations real setting numbers).length =
      (step.operations complex setting values).length := by
  cases step with
  | constant found => rfl
  | argument slot => rfl
  | external cell => rfl
  | negate width => rfl
  | call function =>
      by_cases unit : function = .step
      · subst unit
        obtain ⟨number, rfl⟩ := List.length_eq_one_iff.mp exact
        obtain ⟨value, rfl⟩ := List.length_eq_one_iff.mp operands.length_eq.symm
        rfl
      · cases function <;> first | rfl | exact absurd rfl unit
  | vector operator left right =>
      have equal := operands.length_eq
      simp only [Step.operations, vectorOperations]
      split
      · simp [length_dotOperations, equal]
      · simp [equal]
  | operator operator =>
      cases operator with
      | not =>
          obtain ⟨number, rfl⟩ := List.length_eq_one_iff.mp exact
          obtain ⟨value, rfl⟩ := List.length_eq_one_iff.mp operands.length_eq.symm
          rfl
      | arithmetical found =>
          obtain ⟨left, right, rfl⟩ := List.length_eq_two.mp exact
          obtain ⟨leftValue, rightValue, rfl⟩ := List.length_eq_two.mp operands.length_eq.symm
          rfl
      | logical found =>
          obtain ⟨left, right, rfl⟩ := List.length_eq_two.mp exact
          obtain ⟨leftValue, rightValue, rfl⟩ := List.length_eq_two.mp operands.length_eq.symm
          rfl
      | comparison found =>
          obtain ⟨left, right, rfl⟩ := List.length_eq_two.mp exact
          obtain ⟨leftValue, rightValue, rfl⟩ := List.length_eq_two.mp operands.length_eq.symm
          obtain ⟨first, _⟩ := List.forall₂_cons.mp operands
          simp only [Step.operations, first.isImaginary_eq]
          cases found <;> rfl

/-! ## Runs -/

/-- A step on a list does in both domains what embeds the one stack in the other. -/
theorem execList_embeds {step : Step} (paired : List.Forall₂ Embeds numbers values)
    (enough : step.operands ≤ numbers.length) (isReal : step.ReadsReal setting)
    (kept : Kept (step.operations real setting (Kernel.splitTop numbers step.operands).2)
      (step.operations complex setting (Kernel.splitTop values step.operands).2)) :
    Logged.Related (List.Forall₂ Embeds) (execList real setting index step numbers)
      (execList complex setting index step values) := by
  have below := List.forall₂_take (numbers.length - step.operands) paired
  have operands := List.forall₂_drop (numbers.length - step.operands) paired
  simp only [Kernel.splitTop, ← paired.length_eq] at kept
  simp only [execList, Kernel.splitTop, ← paired.length_eq]
  refine (answer_embeds operands (by simp; omega) isReal kept).bind ?_
  intro results others embedded
  exact .value [] (List.rel_append below embedded)

end Evaluation

/-- A work area of the complex domain holds a stack in which that of the other one is embedded. -/
structure Machine.Mirrors (machine : Machine Float) (other : Machine Cartesian) : Prop where
  size_eq : other.memory.size = machine.memory.size
  carries : machine.Carries machine.values
  otherCarries : other.Carries other.values
  values : List.Forall₂ Embeds machine.values other.values

namespace Evaluation

variable {setting : Setting}

/-- A step in place does so too, and it runs out of room in both domains or in none. -/
theorem exec_mirrors (index : Nat) {step : Step} {machine : Machine Float}
    {other : Machine Cartesian} (mirrors : machine.Mirrors other)
    (enough : step.operands ≤ machine.values.length) (isReal : step.ReadsReal setting)
    (kept : Kept (step.operations real setting (Kernel.splitTop machine.values step.operands).2)
      (step.operations complex setting (Kernel.splitTop other.values step.operands).2)) :
    Logged.Related Machine.Mirrors (exec real setting index step machine)
      (exec complex setting index step other) := by
  have equal := mirrors.values.length_eq
  have reals := exec_related real setting index step mirrors.carries enough
  have complexes := exec_related complex setting index step mirrors.otherCarries (by omega)
  rw [mirrors.size_eq] at complexes
  have lists : Logged.Related (List.Forall₂ Embeds)
      ((execList real setting index step machine.values).bind fun next =>
        Logged.ofExcept (within machine.memory.size next))
      ((execList complex setting index step other.values).bind fun next =>
        Logged.ofExcept (within machine.memory.size next)) := by
    refine (execList_embeds mirrors.values enough isReal kept).bind ?_
    intro next others embedded
    unfold within
    rw [embedded.length_eq]
    split
    · exact .value [] embedded
    · exact .fault [] _
  refine ((reals.trans lists).trans complexes.symm).imp ?_
  rintro after further _ _ ⟨values, ⟨numbers, ⟨sized, carried⟩, embedded⟩, otherSized, otherCarried⟩
  exact {
    size_eq := otherSized.trans sized.symm
    carries := by rwa [carried.values_eq]
    otherCarries := by rwa [otherCarried.values_eq]
    values := by rwa [carried.values_eq, otherCarried.values_eq] }

/-- Steps in place do so one after the other. -/
theorem execAll_mirrors {steps : List Step} {index first : Nat} {shape final : Shape}
    {machine : Machine Float} {other : Machine Cartesian}
    (extended : Shape.extendAll first shape steps = .ok final) (mirrors : machine.Mirrors other)
    (tall : shape.height ≤ machine.values.length) (isReal : ∀ step ∈ steps, step.ReadsReal setting)
    (kept : Kept (operations real setting index steps machine)
      (operations complex setting index steps other)) :
    Logged.Related Machine.Mirrors (execAll real setting index steps machine)
      (execAll complex setting index steps other) := by
  induction steps generalizing index first shape machine other with
  | nil => exact .value [] mirrors
  | cons step rest inductionHypothesis =>
      obtain ⟨next, extendedFirst, extendedRest⟩ := Shape.extendAll_cons_iff.mp extended
      have follows := Shape.extend_follows extendedFirst
      have enough := Nat.le_trans follows.enough tall
      have operands := List.forall₂_drop (machine.values.length - step.operands) mirrors.values
      have aligned : ((step.operations real setting
          (Kernel.splitTop machine.values step.operands).2).length =
            (step.operations complex setting
              (Kernel.splitTop other.values step.operands).2).length) := by
        rw [Kernel.splitTop, Kernel.splitTop, ← mirrors.values.length_eq]
        exact length_operations operands (by simp; omega)
      obtain ⟨keptFirst, keptRest⟩ := (Kept.append_iff aligned).mp kept
      have ran := exec_mirrors index mirrors enough (isReal step List.mem_cons_self) keptFirst
      have goesOn : Logged.Related
          (fun after further => Logged.Related Machine.Mirrors
            (execAll real setting (index + 1) rest after)
            (execAll complex setting (index + 1) rest further))
          (exec real setting index step machine) (exec complex setting index step other) := by
        refine ran.imp ?_
        intro after further ranReal ranComplex mirrored
        rw [ranReal, ranComplex] at keptRest
        obtain ⟨values, listed, _, _, carried⟩ :=
          exec_succeeds_on_list real setting index step mirrors.carries enough ranReal
        have reached := height_le_of_execList follows tall listed
        rw [← carried.values_eq] at reached
        exact inductionHypothesis extendedRest mirrored reached
          (fun later member => isReal later (List.mem_cons_of_mem _ member)) keptRest
      exact goesOn.bind fun _ _ related => related

/-- A question that the tolerance decides is asked in silence. -/
theorem log_decideWith (tolerance : Option Number) (ask : Number → Except Fault Bool) :
    (decideWith tolerance ask).log = [] := by
  cases tolerance with
  | none => rfl
  | some bound => exact Logged.log_ofExcept _

/-- The real domain loads what is of a real kind in silence. -/
theorem log_load_real (index : Nat) (place : Place) {number : Number}
    (isReal : number.isComplex = false) : (load real index place number).log = [] := by
  cases number with
  | complex value => cases isReal
  | real value => rfl
  | int value =>
      simp only [load, real, Arithmetic.realStored]
      cases Tolerance.doubleOfInt value <;> rfl

/-- The real domain has no operand to replace. -/
theorem log_binary_real (tolerance : Option Number) (index : Nat) (operator : Operator)
    (left right : Float) : (binary real tolerance index operator left right).log = [] := by
  cases operator with
  | not => rfl
  | arithmetical found => rfl
  | logical found => exact Logged.log_bind_eq_nil (log_decideWith _ _) fun _ => rfl
  | comparison found => exact Logged.log_bind_eq_nil (log_decideWith _ _) fun _ => rfl

/-- A step of the real domain has nothing to report where all data are of a real kind. -/
theorem log_exec_real (index : Nat) {step : Step} (isReal : step.ReadsReal setting)
    (machine : Machine Float) : (exec real setting index step machine).log = [] := by
  have silent : ∀ {α : Type} (outcome : Except Fault α),
      (Logged.ofExcept outcome : Logged Degradation α).log = [] := Logged.log_ofExcept
  cases step with
  | constant found =>
      exact Logged.log_bind_eq_nil (log_load_real index .constant isReal) fun _ => silent _
  | argument slot => exact Logged.log_bind_eq_nil (silent _) fun _ => silent _
  | external cell =>
      exact Logged.log_bind_eq_nil (log_load_real index .variable isReal) fun _ => silent _
  | call function => exact silent _
  | negate width => exact silent _
  | vector operator left right => exact silent _
  | operator operator =>
      cases operator with
      | not =>
          refine Logged.log_bind_eq_nil (silent _) fun place => ?_
          refine Logged.log_bind_eq_nil (silent _) fun value => ?_
          refine Logged.log_bind_eq_nil ?_ fun _ => silent _
          exact Logged.log_bind_eq_nil (log_decideWith _ _) fun _ => rfl
      | _ =>
          refine Logged.log_bind_eq_nil (silent _) fun place => ?_
          refine Logged.log_bind_eq_nil (silent _) fun left => ?_
          refine Logged.log_bind_eq_nil (silent _) fun right => ?_
          exact Logged.log_bind_eq_nil (log_binary_real _ _ _ _ _) fun _ => silent _

/-- Neither has a run of such steps. -/
theorem log_execAll_real {steps : List Step} (isReal : ∀ step ∈ steps, step.ReadsReal setting)
    (index : Nat) (machine : Machine Float) :
    (execAll real setting index steps machine).log = [] := by
  induction steps generalizing index machine with
  | nil => rfl
  | cons step rest inductionHypothesis =>
      refine Logged.log_bind_eq_nil (log_exec_real index (isReal step List.mem_cons_self) machine)
        fun next => ?_
      exact inductionHypothesis (fun later member => isReal later (List.mem_cons_of_mem _ member))
        (index + 1) next

end Evaluation

/-! ## Programs on real data -/

/-- A program finds real numbers only: among its constants, at the point, and in the cells that it
reads. -/
structure Program.FindsReals (program : Program) (setting : Setting) : Prop where
  constants : ∀ found, .constant found ∈ program.steps → found.value.isComplex = false
  inputs : ∀ number ∈ setting.inputs, number.isComplex = false
  cells : ∀ cell, .external cell ∈ program.steps → (setting.store cell).isComplex = false

/-- Each step of a program that finds real numbers only does so. -/
theorem Program.FindsReals.readsReal {program : Program} {setting : Setting}
    (finds : program.FindsReals setting) : ∀ step ∈ program.steps, step.ReadsReal setting := by
  intro step member
  cases step with
  | constant found => exact finds.constants found member
  | argument slot =>
      intro number given
      exact finds.inputs number (List.mem_of_getElem? given)
  | external cell => exact finds.cells cell member
  | _ => trivial

/-- The operations of a run of a program in a domain, in the order in which they occur. -/
def Evaluation.runOperations {α : Type} (arithmetic : Arithmetic α) (setting : Setting)
    (program : Program) : List (Operation α) :=
  operations arithmetic setting 0 program.steps (Machine.start arithmetic program.shape.depth)

/-- Two evaluations end in the same fault, or in a double and a complex number that embeds it. -/
def Evaluation.Outcome.Mirrors (outcome other : Outcome) : Prop :=
  (∃ cause, outcome.top = .error cause ∧ other.top = .error cause) ∨
    ∃ number value, outcome.top = .ok (.real number) ∧ other.top = .ok (.complex value) ∧
      Embeds number value

/-- A run in the real domain beside one in the complex domain: both fail alike or leave stacks of
which the one is embedded in the other, and neither reports a degradation. An evaluation returns the
top of its stack; the copy of the values into a buffer fails in both domains or in none. -/
structure Program.DomainsAgree (program : Program) (setting : Setting) : Prop where
  values : ∀ machine, (Evaluation.run real setting program).result = .ok machine →
    ∃ other, (Evaluation.run complex setting program).result = .ok other ∧
      List.Forall₂ Embeds machine.values other.values
  faults : ∀ cause, (Evaluation.run real setting program).result = .error cause ↔
    (Evaluation.run complex setting program).result = .error cause
  silent : (Evaluation.run real setting program).log = [] ∧
    (Evaluation.run complex setting program).log = []
  evaluations : ∀ (buffer : Option (List Number)) (width : Option Int),
    (Evaluation.evaluate .real setting program buffer width).Mirrors
      (Evaluation.evaluate .complex setting program buffer width)

namespace Evaluation

theorem outputCount_le (width : Option Int) (height : Nat) : outputCount width height ≤ height := by
  cases width with
  | none => exact Nat.le_refl height
  | some width => exact Nat.min_le_right _ _

/-- After a run that fails, an evaluation fails. -/
theorem evaluate_top_of_error (domain : Domain) {setting : Setting} {program : Program}
    {cause : Fault} (ran : (run domain.arithmetic setting program).result = .error cause)
    (buffer : Option (List Number)) (width : Option Int) :
    (evaluate domain setting program buffer width).top = .error cause := by
  simp [evaluate, ran]

/-- After a run, an evaluation returns the top of the stack unless the buffer is too short. -/
theorem evaluate_top (domain : Domain) {setting : Setting} {program : Program}
    {machine : Machine domain.Scalar} {height : Nat}
    (ran : (run domain.arithmetic setting program).result = .ok machine)
    (tall : machine.values.length = height) (buffer : Option (List Number)) (width : Option Int) :
    (evaluate domain setting program buffer width).top =
      if ∃ given, buffer = some given ∧ given.length < outputCount width height then
        .error .shortOutput
      else machine.topValue.map domain.arithmetic.output := by
  cases buffer with
  | none => simp [evaluate, ran]
  | some given =>
      have whole := outputCount_le width height
      have copied : height - (height - outputCount width height) = outputCount width height := by
        omega
      by_cases short : given.length < outputCount width height <;>
        simp [evaluate, ran, tall, copyOut, copied, short]

/-- The values on top of two stacks, if there are any. -/
theorem topValue_mirrors {machine : Machine Float} {other : Machine Cartesian}
    (embedded : List.Forall₂ Embeds machine.values other.values) :
    (machine.topValue = .error .emptyStack ∧ other.topValue = .error .emptyStack) ∨
      ∃ number value, machine.topValue = .ok number ∧ other.topValue = .ok value ∧
        Embeds number value := by
  have reversed := List.rel_reverse embedded
  rw [Machine.topValue, Machine.topValue, ← List.head?_reverse, ← List.head?_reverse]
  generalize machine.values.reverse = numbers at reversed
  generalize other.values.reverse = values at reversed
  cases reversed with
  | nil => exact .inl ⟨rfl, rfl⟩
  | @cons number value _ _ embeds _ => exact .inr ⟨number, value, rfl, rfl, embeds⟩

/-- Runs that leave such stacks have such evaluations. -/
theorem evaluate_mirrors {setting : Setting} {program : Program} {machine : Machine Float}
    {other : Machine Cartesian} (ran : (run real setting program).result = .ok machine)
    (ranComplex : (run complex setting program).result = .ok other)
    (embedded : List.Forall₂ Embeds machine.values other.values) (buffer : Option (List Number))
    (width : Option Int) :
    (evaluate .real setting program buffer width).Mirrors
      (evaluate .complex setting program buffer width) := by
  obtain ⟨height, tall⟩ : ∃ height, machine.values.length = height := ⟨_, rfl⟩
  have top := evaluate_top .real ran tall buffer width
  have otherTop :=
    evaluate_top .complex ranComplex (embedded.length_eq.symm.trans tall) buffer width
  by_cases short : ∃ given, buffer = some given ∧ given.length < outputCount width height
  · rw [if_pos short] at top otherTop
    exact .inl ⟨.shortOutput, top, otherTop⟩
  · rw [if_neg short] at top otherTop
    rcases topValue_mirrors embedded with
      ⟨first, second⟩ | ⟨number, value, first, second, embeds⟩
    · exact .inl ⟨.emptyStack, top.trans (congrArg (Except.map Number.real) first),
        otherTop.trans (congrArg (Except.map Number.complex) second)⟩
    · exact .inr ⟨number, value, top.trans (congrArg (Except.map Number.real) first),
        otherTop.trans (congrArg (Except.map Number.complex) second), embeds⟩

end Evaluation

/-- A program that finds real numbers only has the same outcome in both domains, provided that the
operations of its two runs keep real values. -/
theorem Program.domainsAgree_of_findsReals {program : Program} {setting : Setting}
    (finds : program.FindsReals setting)
    (kept : ∀ pair ∈ (Evaluation.runOperations real setting program).zip
      (Evaluation.runOperations complex setting program), pair.1.Keeps pair.2) :
    program.DomainsAgree setting := by
  have mirrors : (Machine.start real program.shape.depth).Mirrors
      (Machine.start complex program.shape.depth) := {
    size_eq := by simp [Machine.start]
    carries := Machine.start_carries real _
    otherCarries := Machine.start_carries complex _
    values := .nil }
  have related : Logged.Related Machine.Mirrors (Evaluation.run real setting program)
      (Evaluation.run complex setting program) :=
    Evaluation.execAll_mirrors program.shape_eq mirrors (Nat.zero_le _) finds.readsReal kept
  have silent : (Evaluation.run real setting program).log = [] :=
    Evaluation.log_execAll_real finds.readsReal 0 _
  exact {
    values := by
      intro machine ran
      obtain ⟨other, ranComplex, mirrored⟩ := related.result_of_left ran
      exact ⟨other, ranComplex, mirrored.values⟩
    faults := fun cause => related.result_eq_error_iff
    silent := ⟨silent, related.log_eq ▸ silent⟩
    evaluations := by
      intro buffer width
      cases ran : (Evaluation.run real setting program).result with
      | error cause =>
          have ranComplex := related.result_eq_error_iff.mp ran
          exact .inl ⟨cause, Evaluation.evaluate_top_of_error .real ran buffer width,
            Evaluation.evaluate_top_of_error .complex ranComplex buffer width⟩
      | ok machine =>
          obtain ⟨other, ranComplex, mirrored⟩ := related.result_of_left ran
          exact Evaluation.evaluate_mirrors ran ranComplex mirrored.values buffer width }

/-- The product of a slot and a cell with its sign changed, compared with two, plus one half. -/
def Program.comparedProduct : Program where
  steps := [.argument ⟨1, Nat.one_pos⟩, .external ⟨0⟩, .operator (.arithmetical .mul), .negate 1,
    .constant ⟨.real 2, 0⟩, .operator (.comparison .less), .constant ⟨.real 0.5, 1⟩,
    .operator (.arithmetical .add)]
  shape := ⟨2, 1, true, 1⟩
  shape_eq := rfl

/-- The product loses nothing at this point: its imaginary part is a zero, whose sign changes. -/
theorem Program.domainsAgree_comparedProduct :
    let setting : Setting := ⟨[.real 3], fun _ => .real 1, some (.real 0)⟩
    comparedProduct.FindsReals setting ∧
      (∀ pair ∈ (Evaluation.runOperations real setting comparedProduct).zip
        (Evaluation.runOperations complex setting comparedProduct), pair.1.Keeps pair.2) ∧
      comparedProduct.DomainsAgree setting := by
  intro setting
  have finds : comparedProduct.FindsReals setting := by
    constructor
    · intro found member
      simp only [comparedProduct, List.mem_cons, reduceCtorEq, List.not_mem_nil, or_false,
        false_or, Step.constant.injEq] at member
      rcases member with rfl | rfl <;> rfl
    · intro number member
      rw [List.mem_singleton.mp member]
      rfl
    · intro cell member
      rfl
  have kept : ∀ pair ∈ (Evaluation.runOperations real setting comparedProduct).zip
      (Evaluation.runOperations complex setting comparedProduct), pair.1.Keeps pair.2 :=
    by decide +kernel
  exact ⟨finds, kept, domainsAgree_of_findsReals finds kept⟩

end Formulary
