/-!
# Sets of characters as ranges

A Unicode property is a list of inclusive ranges of code points in ascending order.
-/

namespace Crosscheck.Text

/-- Whether the code point `n` lies in one of the ranges. -/
def inRanges (ranges : List (Nat × Nat)) (n : Nat) : Bool :=
  ranges.any fun r => r.1 ≤ n && n ≤ r.2

end Crosscheck.Text
