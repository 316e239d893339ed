/-!
# Character classes as lists of code point ranges

A class of characters is a list of closed code point ranges. `inRanges` is the membership
check, and `inRanges_iff` says what it decides.
-/

namespace FheSolidity.Unicode

/-- Membership of a code point in one of the closed ranges `rs`. -/
def inRanges (rs : List (Nat × Nat)) (n : Nat) : Bool :=
  rs.any fun r => decide (r.1 ≤ n) && decide (n ≤ r.2)

theorem inRanges_iff {rs : List (Nat × Nat)} {n : Nat} :
    inRanges rs n = true ↔ ∃ r ∈ rs, r.1 ≤ n ∧ n ≤ r.2 := by
  simp [inRanges]

end FheSolidity.Unicode
