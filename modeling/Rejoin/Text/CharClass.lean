/-!
Classes of characters, given by ranges of code points. A class is a finite table, so that
membership is decided by comparing code points and a statement about a class is a statement
about its ranges.
-/

namespace Rejoin.Text

/-- A class of characters: the inclusive ranges of code points that belong to it. -/
structure CharClass where
  ranges : List (Nat × Nat)

/-- Whether the character's code point lies in one of the ranges. -/
def CharClass.contains (k : CharClass) (c : Char) : Bool :=
  k.ranges.any fun (low, high) => low ≤ c.toNat && c.toNat ≤ high

theorem CharClass.contains_iff {k : CharClass} {c : Char} :
    k.contains c = true ↔ ∃ r ∈ k.ranges, r.1 ≤ c.toNat ∧ c.toNat ≤ r.2 := by
  simp [CharClass.contains]

end Rejoin.Text
