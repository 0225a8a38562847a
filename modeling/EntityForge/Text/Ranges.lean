/-!
Sets of characters as ranges of code points.
-/

namespace EntityForge.Text

/-- Whether a code point lies in one of the ranges, whose both ends are included. -/
def inRanges (ranges : List (Nat × Nat)) (code : Nat) : Bool :=
  ranges.any fun range => decide (range.1 ≤ code) && decide (code ≤ range.2)

end EntityForge.Text
