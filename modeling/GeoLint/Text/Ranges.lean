/-!
# Sets of characters

A set of characters is given by closed ranges of code points, in increasing order.
-/

namespace GeoLint

namespace Text

/-- The character lies in one of the ranges. -/
def inRanges (ranges : List (Nat × Nat)) (c : Char) : Bool :=
  ranges.any fun r => r.1 ≤ c.toNat && c.toNat ≤ r.2

end Text

end GeoLint
