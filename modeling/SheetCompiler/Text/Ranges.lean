/-!
# Ranges of code points

Character classes that have no short rule are tables of ranges, both ends included.
-/

namespace SheetCompiler.Text

/-- The number lies in one of the ranges. -/
def inRanges (ranges : List (Nat × Nat)) (n : Nat) : Bool :=
  ranges.any fun (low, high) => low ≤ n && n ≤ high

end SheetCompiler.Text
