/-!
# Character ranges

A character class as a list of inclusive ranges of code points.
-/

namespace CloudGraph.Text

/-- Whether a character lies in one of the ranges. -/
def inRanges (ranges : List (Nat × Nat)) (c : Char) : Bool :=
  ranges.any fun range => range.1 ≤ c.toNat && c.toNat ≤ range.2

end CloudGraph.Text
