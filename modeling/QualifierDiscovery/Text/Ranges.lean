/-!
# Classes of characters given by ranges

A class of characters is a list of ranges of code points, each range with both its ends.
-/

namespace QualifierDiscovery.Text

/-- The code point lies in one of the ranges. -/
def inRanges (ranges : List (Nat × Nat)) (codePoint : Nat) : Bool :=
  ranges.any fun (low, high) => low ≤ codePoint && codePoint ≤ high

end QualifierDiscovery.Text
