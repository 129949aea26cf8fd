/-!
# Sorting by insertion

A list is sorted by a comparison that need not be an order. The run at its start that is already
sorted, or strictly sorted the other way round, is taken as it is or reversed; every further value
is inserted where a search by halves finds its place. With an order as the comparison this is the
stable sort. With any other comparison the procedure itself says what the result is.
-/

namespace Formulary.Insertion

variable {α : Type}

/-- Inserts a value into a list by halves: in front of the middle value if it is less than that
one, and behind it otherwise. -/
def insert (less : α → α → Bool) (value : α) (values : List α) : List α :=
  match _split : values.drop (values.length / 2) with
  | [] => [value]
  | middle :: upper =>
    let lower := values.take (values.length / 2)
    if less value middle then insert less value lower ++ middle :: upper
    else lower ++ middle :: insert less value upper
termination_by values.length
decreasing_by
  all_goals
    have size := congrArg List.length _split
    simp only [List.length_drop, List.length_cons] at size
    grind

/-- The longest start of a list in which every value may follow the one before it, and the rest. -/
def chain (follows : α → α → Bool) : α → List α → List α × List α
  | _, [] => ([], [])
  | last, next :: rest =>
    if follows last next then
      let (run, others) := chain follows next rest
      (next :: run, others)
    else ([], next :: rest)

/-- The run at the start of a list, sorted, and the rest. Only a strictly falling run is reversed,
so that equal values keep their order. -/
def initialRun (less : α → α → Bool) : List α → List α × List α
  | first :: second :: rest =>
    if less second first then
      let (run, others) := chain (fun last next => less next last) second rest
      ((first :: second :: run).reverse, others)
    else
      let (run, others) := chain (fun last next => !less next last) second rest
      (first :: second :: run, others)
  | values => (values, [])

/-- Sorts a list. -/
def sort (less : α → α → Bool) (values : List α) : List α :=
  let (run, others) := initialRun less values
  others.foldl (fun sorted value => insert less value sorted) run

/-- Insertion adds the value and nothing else. -/
theorem insert_perm (less : α → α → Bool) (value : α) (values : List α) :
    (insert less value values).Perm (value :: values) := by
  fun_induction insert less value values with
  | case1 values split =>
    have empty : values = [] := by
      have size := congrArg List.length split
      simp only [List.length_drop, List.length_nil] at size
      exact List.eq_nil_of_length_eq_zero (by omega)
    simp [empty]
  | case2 values middle upper split lower before ih =>
    refine (ih.append_right _).trans ?_
    rw [List.cons_append, ← split, List.take_append_drop]
  | case3 values middle upper split lower behind ih =>
    refine ((ih.cons middle).append_left lower).trans ?_
    refine ((List.Perm.swap value middle upper).append_left lower).trans ?_
    refine List.perm_middle.trans ?_
    rw [← split, List.take_append_drop]

/-- A chain and the rest make up the list. -/
theorem chain_append (follows : α → α → Bool) (last : α) (values : List α) :
    (chain follows last values).1 ++ (chain follows last values).2 = values := by
  fun_induction chain follows last values with
  | case1 => rfl
  | case2 last next rest holds run others split ih => simpa [split] using ih
  | case3 => rfl

/-- The initial run and the rest make up the list, up to the order. -/
theorem initialRun_perm (less : α → α → Bool) (values : List α) :
    ((initialRun less values).1 ++ (initialRun less values).2).Perm values := by
  match values with
  | [] => simp [initialRun]
  | [single] => simp [initialRun]
  | first :: second :: rest =>
    simp only [initialRun]
    split
    · have whole := chain_append (fun last next => less next last) second rest
      refine ((List.reverse_perm _).append_right _).trans ?_
      simp only [List.cons_append, whole]
      exact List.Perm.refl _
    · have whole := chain_append (fun last next => !less next last) second rest
      simp only [List.cons_append, whole]
      exact List.Perm.refl _

/-- Sorting keeps the values. -/
theorem sort_perm (less : α → α → Bool) (values : List α) : (sort less values).Perm values := by
  have gather : ∀ (others run : List α),
      (others.foldl (fun sorted value => insert less value sorted) run).Perm (run ++ others) := by
    intro others
    induction others with
    | nil => intro run; simp
    | cons value others ih =>
      intro run
      refine (ih (insert less value run)).trans ?_
      refine ((insert_perm less value run).append_right others).trans ?_
      exact List.perm_middle.symm
  exact (gather _ _).trans (initialRun_perm less values)

end Formulary.Insertion
