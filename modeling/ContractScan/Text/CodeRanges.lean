/-
  Sets of code points as sorted lists of closed intervals.
-/

namespace ContractScan.Text

/-- Closed intervals of code points, in increasing order. -/
abbrev CodeRanges := List (Nat × Nat)

/-- Whether a code point lies in one of the intervals. -/
def CodeRanges.holds : CodeRanges → Nat → Bool
  | [], _ => false
  | (lo, hi) :: rest, n => if n < lo then false else n ≤ hi || CodeRanges.holds rest n

end ContractScan.Text
