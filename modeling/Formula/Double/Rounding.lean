import Formula.Double.Basic

/-!
# Rounding a ratio to the nearest double

The magnitude of a ratio is written in units of `2 ^ (-1074)`. If it has at most 53 binary digits
before the point it is rounded to a whole number of units; otherwise it is rounded to 53 binary
digits. In both cases a tie goes to the even neighbour, and the rank of the result is the rounded
number of grid steps moved up by one run of `2 ^ 52` ranks for each doubling of the grid. A
rounding that carries into the next power of two lands on the right rank by itself, since ranks
are consecutive.

## Main definitions

* `roundHalfEven` — the nearest whole number to a ratio, ties to even
* `Double.ofRatio` — the nearest double to a ratio, ties to even
-/

namespace Formula

/-- The whole number nearest to `num / den`; of two equally near ones the even one. -/
def roundHalfEven (num den : Nat) : Nat :=
  let below := num / den
  if 2 * (num % den) < den then below
  else if den < 2 * (num % den) then below + 1
  else below + below % 2

namespace Double

/-- The rank of the magnitude nearest to `num / den`, ties to even. What rounds to `2 ^ 1024` or
more is infinity. -/
def rankOfRatio (num den : Nat) : Nat :=
  let scaled := num * 2 ^ 1074
  let shift := (scaled / den).log2 - 52
  min infinityRank (shift * 2 ^ 52 + roundHalfEven scaled (den * 2 ^ shift))

theorem rankOfRatio_le (num den : Nat) : rankOfRatio num den ≤ infinityRank :=
  Nat.min_le_left ..

/-- The double nearest to `num / den`, ties to even. -/
def ofRatio (num den : Nat) : Double where
  negative := false
  rank := rankOfRatio num den
  rank_lt := Nat.lt_of_le_of_lt (rankOfRatio_le num den) (by decide)

end Double

end Formula
