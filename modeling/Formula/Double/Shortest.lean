import Formula.Double.Basic

/-!
# The shortest decimal that reads back

Every positive finite magnitude has an interval of reals that round to it: it reaches half way to
the two neighbouring magnitudes, and contains its ends exactly if the rank is even, because a tie
goes to the even rank. Among the multiples of a power of ten the interval can hold, the coarsest
power of ten that has one gives the fewest digits.

All numbers here are whole multiples of `10 ^ (-1074)`. A magnitude of `u` units of `2 ^ (-1074)` is
`u * 5 ^ 1074` of them, so no division loses anything.

## Main definitions

* `Decimal` — a whole number times a power of ten
* `Double.roundsTo` — does a multiple of `10 ^ (-1074)` round to the given rank?
* `Double.nearestMultiple?` — the nearest multiple of a step that rounds to a rank
* `Double.shortest` — the decimal with the fewest digits that rounds to a rank
-/

namespace Formula

/-- The number `digits * 10 ^ exponent`. -/
structure Decimal where
  digits : Nat
  exponent : Int
deriving DecidableEq, Repr

namespace Double

/-- The magnitude of a rank as a multiple of `10 ^ (-1074)`. -/
def decimalUnits (rank : Nat) : Nat := units rank * 5 ^ 1074

/-- Does `n * 10 ^ (-1074)` round to the magnitude of `rank`? Both sides are doubled, so that the
half-way points to the neighbouring magnitudes are whole. -/
def roundsTo (rank n : Nat) : Bool :=
  let low := decimalUnits (rank - 1) + decimalUnits rank
  let high := decimalUnits rank + decimalUnits (rank + 1)
  if rank % 2 = 0 then decide (low ≤ 2 * n ∧ 2 * n ≤ high) else decide (low < 2 * n ∧ 2 * n < high)

/-- The factor of the multiple of `step` that rounds to `rank` and is nearest to its magnitude, if
there is one. If any multiple rounds to `rank`, then so does one of the two next to the magnitude.
Of two equally near multiples the larger one is taken. -/
def nearestMultiple? (rank step : Nat) : Option Nat :=
  let value := decimalUnits rank
  let below := value / step
  match roundsTo rank (below * step), roundsTo rank ((below + 1) * step) with
  | true, true => some (if 2 * (value % step) < step then below else below + 1)
  | true, false => some below
  | false, true => some (below + 1)
  | false, false => none

/-- The first decimal found that rounds to `rank` when the power of ten goes down from
`place - 1074`. At the finest power the magnitude itself is a multiple. -/
def shortestFrom (rank : Nat) : Nat → Decimal
  | 0 => ⟨decimalUnits rank, -1074⟩
  | place + 1 =>
    match nearestMultiple? rank (10 ^ (place + 1)) with
    | some digits => ⟨digits, Int.ofNat (place + 1) - 1074⟩
    | none => shortestFrom rank place

/-- The decimal with the fewest digits among those that round to `rank`, and the nearest of these.
The search starts above the interval of `rank`: `28 / 93` is just over the logarithm of two. -/
def shortest (rank : Nat) : Decimal :=
  shortestFrom rank (((decimalUnits rank).log2 + 1) * 28 / 93 + 1)

end Double

end Formula
