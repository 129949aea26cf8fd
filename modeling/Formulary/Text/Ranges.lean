/-!
# Sets of characters as ranges of code points

A character class is written down as the list of its maximal runs of code points, in rising
order. The tables of the classes follow version 14 of the Unicode character database.
-/

namespace Formulary.Text

/-- A set of code points, as closed intervals `(first, last)`. -/
abbrev Ranges := List (Nat × Nat)

/-- A code point is in the set exactly when one of the intervals holds it. -/
def Ranges.contains (ranges : Ranges) (code : Nat) : Bool :=
  ranges.any fun interval => interval.1 ≤ code && code ≤ interval.2

theorem Ranges.contains_iff {ranges : Ranges} {code : Nat} :
    ranges.contains code = true ↔
      ∃ interval ∈ ranges, interval.1 ≤ code ∧ code ≤ interval.2 := by
  simp [Ranges.contains, List.any_eq_true]

/-- A set made of two parts holds what either part holds. -/
theorem Ranges.contains_append (first second : Ranges) (code : Nat) :
    Ranges.contains (first ++ second) code = (first.contains code || second.contains code) := by
  simp [Ranges.contains, List.any_append]

end Formulary.Text
