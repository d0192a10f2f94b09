/-!
# Sets of characters given by ranges

A set of characters beyond ASCII is listed as the inclusive ranges of its code points.
-/

namespace Formula

/-- Inclusive ranges of code points. -/
abbrev CharRanges := List (Nat × Nat)

/-- Does one of the ranges hold the character? -/
def CharRanges.covers (ranges : CharRanges) (c : Char) : Bool :=
  ranges.any fun range => decide (range.1 ≤ c.toNat ∧ c.toNat ≤ range.2)

end Formula
