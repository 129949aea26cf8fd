import Formulary.Fault
import Mathlib.Data.List.Forall2

/-!
# Laws of outcomes

Sequences of computations that may end in an error, with and without a log. `Logged.Related`
compares two computations that run side by side: they log the same and end in the same fault or in
results that are related.
-/

namespace Formulary

/-! ## Outcomes without a log -/

namespace Outcome

variable {ε α β γ : Type}

@[simp] theorem ok_bind (value : α) (next : α → Except ε β) :
    (Except.ok value >>= next) = next value := rfl

@[simp] theorem error_bind (cause : ε) (next : α → Except ε β) :
    (Except.error cause >>= next) = .error cause := rfl

@[simp] theorem pure_eq_ok (value : α) : (pure value : Except ε α) = .ok value := rfl

/-- A sequence of two computations succeeds exactly when both do. -/
theorem bind_eq_ok_iff {first : Except ε α} {next : α → Except ε β} {result : β} :
    (first >>= next) = .ok result ↔ ∃ value, first = .ok value ∧ next value = .ok result := by
  cases first with
  | error cause => simp
  | ok value => simp

/-- A result that is seen through a function is the view of a result. -/
theorem map_eq_ok_iff {view : α → β} {outcome : Except ε α} {result : β} :
    outcome.map view = .ok result ↔ ∃ value, outcome = .ok value ∧ view value = result := by
  cases outcome <;> simp [Except.map]

/-- A list is computed entry by entry when each of its entries is, and only then. -/
theorem mapM_eq_ok_iff {compute : α → Except ε β} {items : List α} {values : List β} :
    items.mapM compute = .ok values ↔
      List.Forall₂ (fun item value => compute item = .ok value) items values := by
  induction items generalizing values with
  | nil => cases values <;> simp
  | cons item rest inductionHypothesis =>
      simp only [List.mapM_cons, bind_eq_ok_iff, inductionHypothesis, List.forall₂_cons_left_iff]
      constructor
      · rintro ⟨value, computed, further, entries, finished⟩
        cases finished
        exact ⟨value, further, computed, entries, rfl⟩
      · rintro ⟨value, further, computed, entries, rfl⟩
        exact ⟨value, computed, further, entries, rfl⟩

/-- A list is computed in two passes exactly when each of its entries goes through both. -/
theorem mapM_bind_eq_ok_iff {first : α → Except ε β} {second : β → Except ε γ} {items : List α}
    {values : List γ} :
    items.mapM (fun item => first item >>= second) = .ok values ↔
      ∃ middle, items.mapM first = .ok middle ∧ middle.mapM second = .ok values := by
  induction items generalizing values with
  | nil => simp
  | cons item rest inductionHypothesis =>
      simp only [List.mapM_cons, bind_eq_ok_iff, inductionHypothesis, pure_eq_ok,
        Except.ok.injEq]
      constructor
      · rintro ⟨value, ⟨entry, computed, went⟩, further, ⟨middle, before, after⟩, rfl⟩
        exact ⟨entry :: middle, ⟨entry, computed, middle, before, rfl⟩, by simp [went, after]⟩
      · rintro ⟨_, ⟨entry, computed, middle, before, rfl⟩, went⟩
        simp only [List.mapM_cons, bind_eq_ok_iff, pure_eq_ok, Except.ok.injEq] at went
        obtain ⟨value, first, further, after, finished⟩ := went
        exact ⟨value, ⟨entry, computed, first⟩, further, ⟨middle, before, after⟩, finished⟩

/-- A list is computed when there is no entry for which this fails. -/
theorem exists_mapM_eq_ok {compute : α → Except ε β} {items : List α}
    (computes : ∀ item ∈ items, ∃ value, compute item = .ok value) :
    ∃ values, items.mapM compute = .ok values := by
  induction items with
  | nil => exact ⟨[], rfl⟩
  | cons item rest inductionHypothesis =>
      obtain ⟨value, computed⟩ := computes item List.mem_cons_self
      obtain ⟨values, further⟩ := inductionHypothesis fun other member =>
        computes other (List.mem_cons_of_mem _ member)
      exact ⟨value :: values, by simp [computed, further]⟩

/-- Computing the entries of a list one after the other gives the list. -/
theorem mapM_range_eq_ok {compute : Nat → Except ε α} (values : List α)
    (computes : ∀ index (bound : index < values.length), compute index = .ok values[index]) :
    (List.range values.length).mapM compute = .ok values := by
  rw [mapM_eq_ok_iff, List.forall₂_iff_get]
  refine ⟨List.length_range, ?_⟩
  intro index _ bound
  simpa using computes index bound

end Outcome

/-! ## Outcomes with a log -/

namespace Logged

variable {ω α β γ δ : Type}

@[simp] theorem ofExcept_ok (result : α) :
    (ofExcept (.ok result) : Logged ω α) = value result := rfl

@[simp] theorem ofExcept_error (cause : Fault) :
    (ofExcept (.error cause) : Logged ω α) = fault cause := rfl

/-- A sequence of two computations succeeds exactly when both do. -/
theorem result_bind_eq_ok_iff {first : Logged ω α} {next : α → Logged ω β} {result : β} :
    (first.bind next).result = .ok result ↔
      ∃ middle, first.result = .ok middle ∧ (next middle).result = .ok result := by
  rcases first with ⟨log, outcome⟩
  cases outcome <;> simp [bind]

/-- The outcome of a sequence is the sequence of the outcomes. -/
theorem result_bind (first : Logged ω α) (next : α → Logged ω β) :
    (first.bind next).result = first.result >>= fun middle => (next middle).result := by
  rcases first with ⟨log, outcome⟩
  cases outcome <;> rfl

@[simp] theorem result_value (result : α) : (value result : Logged ω α).result = .ok result := rfl

@[simp] theorem result_ofExcept (outcome : Except Fault α) :
    (ofExcept outcome : Logged ω α).result = outcome := rfl

@[simp] theorem log_ofExcept (outcome : Except Fault α) :
    (ofExcept outcome : Logged ω α).log = [] := rfl

@[simp] theorem result_noteIf (condition : Bool) (entry : ω) :
    (noteIf condition entry).result = .ok () := by
  cases condition <;> rfl

/-- What a computation would go on with after another result does not matter. -/
theorem bind_congr_of_ok {first : Logged ω α} {next other : α → Logged ω β} {result : α}
    (succeeds : first.result = .ok result) (same : next result = other result) :
    first.bind next = first.bind other := by
  rw [bind, bind, succeeds]
  simp only [same]

/-- A computation that goes on after a success adds to its log. -/
theorem log_bind_of_ok {first : Logged ω α} {next : α → Logged ω β} {result : α}
    (succeeds : first.result = .ok result) :
    (first.bind next).log = first.log ++ (next result).log := by
  rw [bind, succeeds]

/-- A sequence of two computations that log nothing logs nothing. -/
theorem log_bind_eq_nil {first : Logged ω α} {next : α → Logged ω β} (silent : first.log = [])
    (continues : ∀ result, (next result).log = []) : (first.bind next).log = [] := by
  rcases first with ⟨log, cause | result⟩
  · exact silent
  · simpa [bind, continues result] using silent

instance : LawfulMonad (Logged ω) :=
  LawfulMonad.mk' (Logged ω) bind_value (fun result next => value_bind result next) bind_assoc

/-- Whether a computation logs anything before a fault does not matter for its outcome. -/
@[simp] theorem result_silentFault (computation : Logged ω α) :
    computation.silentFault.result = computation.result := by
  rcases computation with ⟨log, cause | result⟩ <;> rfl

/-- The outcome of computing a list entry by entry does not depend on what is logged. -/
theorem result_mapM (compute : α → Logged ω β) (items : List α) :
    (items.mapM compute).result = items.mapM fun item => (compute item).result := by
  induction items with
  | nil => rfl
  | cons item rest inductionHypothesis =>
      simp only [List.mapM_cons, bind_eq, result_bind, inductionHypothesis, pure_eq, result_value,
        Outcome.pure_eq_ok]

/-- The same computation with every entry of its log replaced. -/
def relog {χ : Type} (view : ω → χ) (computation : Logged ω α) : Logged χ α :=
  ⟨computation.log.map view, computation.result⟩

section Relog

variable {χ : Type} (view : ω → χ)

@[simp] theorem relog_value (result : α) : (value result).relog view = value result := rfl

@[simp] theorem relog_fault (cause : Fault) :
    (fault cause : Logged ω α).relog view = fault cause := rfl

@[simp] theorem relog_ofExcept (outcome : Except Fault α) :
    (ofExcept outcome).relog view = ofExcept outcome := rfl

@[simp] theorem relog_noteIf (condition : Bool) (entry : ω) :
    (noteIf condition entry).relog view = noteIf condition (view entry) := by
  cases condition <;> rfl

@[simp] theorem relog_bind (first : Logged ω α) (next : α → Logged ω β) :
    (first.bind next).relog view =
      (first.relog view).bind fun result => (next result).relog view := by
  rcases first with ⟨log, cause | result⟩
  · rfl
  · simp [relog, bind]

end Relog

/-- A computation that does not end in a fault. -/
def Succeeds (computation : Logged ω α) : Prop :=
  ∃ result, computation.result = .ok result

theorem succeeds_value (result : α) : (value result : Logged ω α).Succeeds := ⟨result, rfl⟩

theorem succeeds_noteIf (condition : Bool) (entry : ω) : (noteIf condition entry).Succeeds := by
  cases condition <;> exact ⟨(), rfl⟩

theorem succeeds_ofExcept {outcome : Except Fault α} (found : ∃ result, outcome = .ok result) :
    (ofExcept outcome : Logged ω α).Succeeds := found

/-- A sequence of two computations does not end in a fault when neither part does. -/
theorem Succeeds.bind {first : Logged ω α} {next : α → Logged ω β} (succeeds : first.Succeeds)
    (continues : ∀ result, (next result).Succeeds) : (first.bind next).Succeeds := by
  obtain ⟨middle, ended⟩ := succeeds
  obtain ⟨result, finished⟩ := continues middle
  exact ⟨result, result_bind_eq_ok_iff.mpr ⟨middle, ended, finished⟩⟩

/-- Two computations log the same, and end in the same fault or in related results. -/
inductive Related (related : α → β → Prop) : Logged ω α → Logged ω β → Prop
  | value (log : List ω) {left : α} {right : β} (results : related left right) :
      Related related ⟨log, .ok left⟩ ⟨log, .ok right⟩
  | fault (log : List ω) (cause : Fault) :
      Related related ⟨log, .error cause⟩ ⟨log, .error cause⟩

variable {related : α → β → Prop} {next : γ → δ → Prop}

/-- A computation is related to itself. -/
theorem Related.refl (computation : Logged ω α) : Related Eq computation computation := by
  rcases computation with ⟨log, outcome⟩
  cases outcome with
  | error cause => exact .fault log cause
  | ok result => exact .value log rfl

/-- Related computations that go on alike stay related. -/
theorem Related.bind {left : Logged ω α} {right : Logged ω β} {leftNext : α → Logged ω γ}
    {rightNext : β → Logged ω δ} (first : Related related left right)
    (continues : ∀ leftResult rightResult, related leftResult rightResult →
      Related next (leftNext leftResult) (rightNext rightResult)) :
    Related next (left.bind leftNext) (right.bind rightNext) := by
  cases first with
  | fault log cause => exact .fault log cause
  | @value log leftResult rightResult results =>
      have later := continues leftResult rightResult results
      simp only [Logged.bind]
      generalize leftNext leftResult = leftLater at later
      generalize rightNext rightResult = rightLater at later
      cases later with
      | value further finals => exact .value _ finals
      | fault further cause => exact .fault _ cause

/-- Related computations are related the other way round. -/
theorem Related.symm {left : Logged ω α} {right : Logged ω β}
    (first : Related related left right) :
    Related (fun rightResult leftResult => related leftResult rightResult) right left := by
  cases first with
  | value log results => exact .value log results
  | fault log cause => exact .fault log cause

/-- Two relations in a row. -/
theorem Related.trans {further : β → γ → Prop} {left : Logged ω α} {middle : Logged ω β}
    {right : Logged ω γ} (first : Related related left middle)
    (second : Related further middle right) :
    Related (fun leftResult rightResult =>
      ∃ middleResult, related leftResult middleResult ∧ further middleResult rightResult)
      left right := by
  cases first with
  | value log results =>
      cases second with
      | value log others => exact .value log ⟨_, results, others⟩
  | fault log cause =>
      cases second with
      | fault log cause => exact .fault log cause

/-- Results that are related are the results of the two computations, and may be related in any
other way that follows. -/
theorem Related.imp {left : Logged ω α} {right : Logged ω β} (first : Related related left right)
    {other : α → β → Prop}
    (follows : ∀ leftResult rightResult, left.result = .ok leftResult →
      right.result = .ok rightResult → related leftResult rightResult →
        other leftResult rightResult) :
    Related other left right := by
  cases first with
  | value log results => exact .value log (follows _ _ rfl rfl results)
  | fault log cause => exact .fault log cause

/-- A check that every result passes may be left out. -/
theorem Related.of_checked {left : Logged ω α} {right : Logged ω β} {check : β → Except Fault β}
    {holds : β → Prop}
    (first : Related related left (right.bind fun result => ofExcept (check result)))
    (passes : ∀ result, right.result = .ok result → check result = .ok result ∧ holds result) :
    Related (fun leftResult rightResult => related leftResult rightResult ∧ holds rightResult)
      left right := by
  rcases right with ⟨log, cause | result⟩
  · cases first
    exact .fault log cause
  · obtain ⟨passed, held⟩ := passes result rfl
    simp only [Logged.bind, passed, ofExcept_ok, Logged.value, List.append_nil] at first
    cases first with
    | value log results => exact .value log ⟨results, held⟩

/-- Related computations have the same log. -/
theorem Related.log_eq {left : Logged ω α} {right : Logged ω β}
    (first : Related related left right) : left.log = right.log := by
  cases first <;> rfl

/-- Related computations have the same outcome once related results are seen alike. -/
theorem Related.map_result_eq {left : Logged ω α} {right : Logged ω β}
    (first : Related related left right) {view : α → β}
    (alike : ∀ leftResult rightResult, related leftResult rightResult →
      view leftResult = rightResult) :
    left.result.map view = right.result := by
  cases first with
  | value log results => exact congrArg Except.ok (alike _ _ results)
  | fault log cause => rfl

/-- Related computations end in the same fault or in none. -/
theorem Related.result_eq_error_iff {left : Logged ω α} {right : Logged ω β}
    (first : Related related left right) {cause : Fault} :
    left.result = .error cause ↔ right.result = .error cause := by
  cases first <;> simp

/-- When one of two related computations succeeds, so does the other. -/
theorem Related.result_of_right {left : Logged ω α} {right : Logged ω β}
    (first : Related related left right) {rightResult : β}
    (succeeds : right.result = .ok rightResult) :
    ∃ leftResult, left.result = .ok leftResult ∧ related leftResult rightResult := by
  cases first with
  | value log results =>
      cases succeeds
      exact ⟨_, rfl, results⟩
  | fault log cause => cases succeeds

/-- When one of two related computations succeeds, so does the other. -/
theorem Related.result_of_left {left : Logged ω α} {right : Logged ω β}
    (first : Related related left right) {leftResult : α}
    (succeeds : left.result = .ok leftResult) :
    ∃ rightResult, right.result = .ok rightResult ∧ related leftResult rightResult := by
  cases first with
  | value log results =>
      cases succeeds
      exact ⟨_, rfl, results⟩
  | fault log cause => cases succeeds

end Logged

end Formulary
