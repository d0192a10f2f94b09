import Formula.Double.Shortest
import Formula.Proofs.Double.Nearest

/-!
# The search for the shortest decimal

The search stops at a multiple of a power of ten in the interval of the rank; at the finest power
the magnitude itself is one, so there is always a decimal to be found. Intervals have no gaps, so it
is enough to try the two multiples next to the magnitude, and as the search starts above the
interval, no coarser power of ten has such a multiple.

## Main results

* `Double.roundsTo_eq_true_iff` — the test of the search is that of the interval
* `Double.exists_shortestFrom` — what the search finds, and what it does not
* `Double.covers_shortest` — the shortest decimal lies in the interval of its rank
* `Double.roundsTo_eq_false_of_start_lt` — the search starts above the interval
-/

namespace Formula

namespace Double

/-! ### One power of ten -/

section Multiples

variable {rank step factor best a b c : Nat}

theorem five_pow_pos (n : Nat) : 0 < 5 ^ n := Nat.pow_pos (Nat.succ_pos 4)

/-- A multiple of `10 ^ (-1074)` rounds to a rank if it lies in the interval of the rank. -/
theorem roundsTo_eq_true_iff {n : Nat} : roundsTo rank n = true ↔ Covers rank n (5 ^ 1074) := by
  unfold roundsTo Covers decimalUnits
  generalize 5 ^ 1074 = five
  simp only [← Nat.add_mul]
  split
  · next even => simp [even]
  · next odd =>
    have odd' : rank % 2 = 1 := by omega
    simp only [odd', decide_eq_true_eq, forall_const]
    omega

/-- What the search finds at a power of ten is a multiple that rounds to the rank. -/
theorem roundsTo_of_nearestMultiple? (found : nearestMultiple? rank step = some factor) :
    roundsTo rank (factor * step) = true := by
  simp only [nearestMultiple?] at found
  split at found
  · next below above =>
    obtain rfl := Option.some.inj found
    split
    · exact below
    · exact above
  · next below _ =>
    obtain rfl := Option.some.inj found
    exact below
  · next _ above =>
    obtain rfl := Option.some.inj found
    exact above
  · cases found

/-- The magnitude itself rounds to its rank. -/
theorem roundsTo_decimalUnits (rank : Nat) : roundsTo rank (decimalUnits rank) = true := by
  rw [roundsTo_eq_true_iff, decimalUnits]
  -- Nothing depends on the power of five, and it is too large to be computed with.
  have pos := five_pow_pos 1074
  generalize 5 ^ 1074 = five at pos
  have before := Nat.mul_le_mul_right five (units_le_units (Nat.sub_le rank 1))
  have next := Nat.mul_lt_mul_of_pos_right (units_lt_units_succ rank) pos
  unfold Covers
  rw [Nat.add_mul, Nat.add_mul]
  refine ⟨by omega, by omega, fun odd => ⟨?_, by omega⟩⟩
  have := Nat.mul_lt_mul_of_pos_right (units_lt_units (a := rank - 1) (b := rank) (by omega)) pos
  omega

/-- What lies between two numbers that round to a rank rounds to it as well. -/
theorem roundsTo_of_between (low : roundsTo rank a = true) (high : roundsTo rank c = true)
    (above : a ≤ b) (below : b ≤ c) : roundsTo rank b = true := by
  rw [roundsTo_eq_true_iff, Covers] at low high ⊢
  refine ⟨by omega, by omega, fun odd => ?_⟩
  have := low.2.2 odd
  have := high.2.2 odd
  omega

/-- With any multiple that rounds to a rank, that next to the magnitude on the same side does. -/
theorem roundsTo_neighbour (pos : 0 < step) (rounds : roundsTo rank (factor * step) = true) :
    (factor * step ≤ decimalUnits rank / step * step ∧
        roundsTo rank (decimalUnits rank / step * step) = true) ∨
      ((decimalUnits rank / step + 1) * step ≤ factor * step ∧
        roundsTo rank ((decimalUnits rank / step + 1) * step) = true) := by
  have self := roundsTo_decimalUnits rank
  have atMost := Nat.div_mul_le_self (decimalUnits rank) step
  have beyond := Nat.lt_mul_of_div_lt (Nat.lt_succ_self (decimalUnits rank / step)) pos
  by_cases below : factor ≤ decimalUnits rank / step
  · have le := Nat.mul_le_mul_right step below
    exact Or.inl ⟨le, roundsTo_of_between rounds self le atMost⟩
  · have le := Nat.mul_le_mul_right step (Nat.lt_of_not_le below)
    exact Or.inr ⟨le, roundsTo_of_between self rounds (Nat.le_of_lt beyond) le⟩

/-- If the search finds no multiple of a step, there is none. -/
theorem roundsTo_of_nearestMultiple?_eq_none (pos : 0 < step)
    (none : nearestMultiple? rank step = none) (factor : Nat) :
    roundsTo rank (factor * step) = false := by
  rw [← Bool.not_eq_true]
  intro rounds
  unfold nearestMultiple? at none
  rcases roundsTo_neighbour pos rounds with ⟨-, below⟩ | ⟨-, above⟩
  · simp only [below] at none
    split at none <;> simp_all
  · simp only [above] at none
    split at none <;> simp_all

/-- If it finds one, then none is nearer to the magnitude. -/
theorem natAbs_sub_le_of_nearestMultiple? (pos : 0 < step)
    (found : nearestMultiple? rank step = some best)
    (rounds : roundsTo rank (factor * step) = true) :
    (((best * step : Nat) : Int) - decimalUnits rank).natAbs ≤
      (((factor * step : Nat) : Int) - decimalUnits rank).natAbs := by
  have division := Nat.div_add_mod' (decimalUnits rank) step
  have small := Nat.mod_lt (decimalUnits rank) pos
  have next : (decimalUnits rank / step + 1) * step = decimalUnits rank / step * step + step := by
    rw [Nat.add_mul, Nat.one_mul]
  have side := roundsTo_neighbour pos rounds
  simp only [nearestMultiple?] at found
  split at found
  · obtain rfl := Option.some.inj found
    split <;> omega
  · next above =>
    obtain rfl := Option.some.inj found
    have := (side.resolve_right (by simp [above])).1
    omega
  · next below _ =>
    obtain rfl := Option.some.inj found
    have := (side.resolve_left (by simp [below])).1
    omega
  · cases found

end Multiples

/-! ### The search -/

section Search

variable {rank place top : Nat}

/-- A decimal that the search has found: it rounds to the rank, no other multiple of its power of
ten that does is nearer, and up to where the search has started there is no coarser power of ten
with such a multiple. -/
theorem exists_shortestFrom (rank top : Nat) :
    ∃ digits place : Nat, shortestFrom rank top = ⟨digits, (place : Int) - 1074⟩ ∧
      roundsTo rank (digits * 10 ^ place) = true ∧
      (∀ factor, roundsTo rank (factor * 10 ^ place) = true →
        (((digits * 10 ^ place : Nat) : Int) - decimalUnits rank).natAbs ≤
          (((factor * 10 ^ place : Nat) : Int) - decimalUnits rank).natAbs) ∧
      ∀ factor place', place < place' → place' ≤ top →
        roundsTo rank (factor * 10 ^ place') = false := by
  induction top with
  | zero =>
    refine ⟨decimalUnits rank, 0, rfl, ?_, fun factor _ => ?_, fun _ place' lt le => by omega⟩
    · rw [Nat.pow_zero, Nat.mul_one]
      exact roundsTo_decimalUnits rank
    · rw [Nat.pow_zero, Nat.mul_one, Int.sub_self]
      exact Nat.zero_le _
  | succ top ih =>
    have pos : 0 < 10 ^ (top + 1) := Nat.pow_pos (by decide)
    rw [shortestFrom]
    cases found : nearestMultiple? rank (10 ^ (top + 1)) with
    | some digits =>
      exact ⟨digits, top + 1, rfl, roundsTo_of_nearestMultiple? found,
        fun _ => natAbs_sub_le_of_nearestMultiple? pos found, fun _ place' lt le => by omega⟩
    | none =>
      obtain ⟨digits, place, search, rounds, nearest, coarsest⟩ := ih
      refine ⟨digits, place, search, rounds, nearest, fun factor place' lt le => ?_⟩
      by_cases last : place' = top + 1
      · rw [last]
        exact roundsTo_of_nearestMultiple?_eq_none pos found factor
      · exact coarsest factor place' lt (by omega)

/-- The search starts above the interval: `28 / 93` is just over the logarithm of two. -/
theorem two_pow_le_ten_pow (n : Nat) : 2 ^ n ≤ 10 ^ (n * 28 / 93 + 1) := by
  have digits : n * 28 ≤ 93 * (n * 28 / 93 + 1) := by omega
  apply (Nat.pow_le_pow_iff_left (show 28 ≠ 0 by decide)).mp
  calc (2 ^ n) ^ 28 = 2 ^ (n * 28) := (Nat.pow_mul ..).symm
    _ ≤ 2 ^ (93 * (n * 28 / 93 + 1)) := Nat.pow_le_pow_right Nat.two_pos digits
    _ = (2 ^ 93) ^ (n * 28 / 93 + 1) := Nat.pow_mul ..
    _ ≤ (10 ^ 28) ^ (n * 28 / 93 + 1) := Nat.pow_le_pow_left (by decide) _
    _ = (10 ^ (n * 28 / 93 + 1)) ^ 28 := by rw [← Nat.pow_mul, ← Nat.pow_mul, Nat.mul_comm]

/-- No multiple of a power of ten beyond the start of the search rounds to a rank. -/
theorem roundsTo_eq_false_of_start_lt (pos : 0 < rank)
    (beyond : ((decimalUnits rank).log2 + 1) * 28 / 93 + 1 < place) (factor : Nat) :
    roundsTo rank (factor * 10 ^ place) = false := by
  obtain ⟨shift, whole, normal, here, next⟩ := exists_units_eq rank
  have positive := units_lt_units pos
  have upper : decimalUnits (rank + 1) ≤ 2 * decimalUnits rank := by
    have wholePos : 1 ≤ whole := by omega
    rw [decimalUnits, decimalUnits, here, next, ← Nat.mul_assoc, ← Nat.mul_assoc]
    apply Nat.mul_le_mul_right
    apply Nat.mul_le_mul_right
    omega
  have bound : decimalUnits rank < 10 ^ (((decimalUnits rank).log2 + 1) * 28 / 93 + 1) :=
    Nat.lt_of_lt_of_le Nat.lt_log2_self (two_pow_le_ten_pow _)
  have power : 10 * 10 ^ (((decimalUnits rank).log2 + 1) * 28 / 93 + 1) ≤ 10 ^ place := by
    rw [Nat.mul_comm, ← Nat.pow_succ]
    exact Nat.pow_le_pow_right (by decide) beyond
  have valuePos : 0 < decimalUnits rank := by
    apply Nat.mul_pos _ (five_pow_pos 1074)
    omega
  rw [← Bool.not_eq_true]
  intro rounds
  have low : decimalUnits rank ≤ 2 * (factor * 10 ^ place) := by
    have := (roundsTo_eq_true_iff.mp rounds).1
    rw [Nat.add_mul] at this
    exact Nat.le_trans (Nat.le_add_left ..) this
  have high : 2 * (factor * 10 ^ place) ≤ decimalUnits rank + decimalUnits (rank + 1) := by
    have := (roundsTo_eq_true_iff.mp rounds).2.1
    rwa [Nat.add_mul] at this
  by_cases zero : factor = 0
  · rw [zero, Nat.zero_mul] at low
    omega
  · have := Nat.le_mul_of_pos_left (10 ^ place) (Nat.pos_of_ne_zero zero)
    omega

/-- The shortest decimal lies in the interval of its rank. -/
theorem covers_shortest (rank : Nat) :
    ∃ power : Nat, (shortest rank).exponent = (power : Int) - 1074 ∧
      Covers rank ((shortest rank).digits * 10 ^ power) (5 ^ 1074) := by
  obtain ⟨digits, power, search, rounds, _⟩ :=
    exists_shortestFrom rank (((decimalUnits rank).log2 + 1) * 28 / 93 + 1)
  rw [shortest, search]
  exact ⟨power, rfl, roundsTo_eq_true_iff.mp rounds⟩

end Search

end Double

end Formula
