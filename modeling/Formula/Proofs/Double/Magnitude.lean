import Mathlib.Algebra.Order.Field.Rat
import Mathlib.Tactic.NormNum
import Formula.Double.Text
import Formula.Proofs.Double.Nearest

/-!
# Magnitudes as rational numbers

The ranges in which a double has one or the other layout are ranges of its magnitude, which is a
rational number. The test for the plain range asks the same without leaving the whole numbers.

## Main definitions

* `Double.magnitude` — the magnitude of a double
* `Double.IsScientific` — is a double written with a power of ten?

## Main results

* `Double.isPlain_eq_true_iff` — what the test for the plain range decides
* `Double.isScientific_iff` — finite doubles that fail it are written with a power of ten
-/

namespace Formula

namespace Double

/-- The magnitude of a double, where infinity counts as `2 ^ 1024`. -/
def magnitude (x : Double) : ℚ := units x.rank / 2 ^ 1074

/-- Is the double finite, not zero and outside `[1e-3, 1e7)`? -/
def IsScientific (x : Double) : Prop :=
  x.rank < infinityRank ∧ x.magnitude ≠ 0 ∧ ¬(1 / 1000 ≤ x.magnitude ∧ x.magnitude < 10 ^ 7)

section Magnitude

variable {x : Double}

/-- Only the first rank has no magnitude. -/
theorem magnitude_eq_zero_iff : x.magnitude = 0 ↔ x.rank = 0 := by
  have unit : (2 : ℚ) ^ 1074 ≠ 0 := pow_ne_zero 1074 two_ne_zero
  rw [magnitude, div_eq_zero_iff, or_iff_left unit, Nat.cast_eq_zero]
  constructor
  · intro zero
    refine Nat.eq_zero_of_not_pos fun positive => ?_
    have := units_lt_units positive
    omega
  · intro zero
    rw [zero]
    rfl

/-- The test for the plain range decides whether the magnitude is zero or in the range. -/
theorem isPlain_eq_true_iff :
    isPlain x.rank = true ↔
      x.magnitude = 0 ∨ 1 / 1000 ≤ x.magnitude ∧ x.magnitude < 10 ^ 7 := by
  have cast (n : ℕ) : (2 : ℚ) ^ n = ((2 ^ n : ℕ) : ℚ) := by rw [Nat.cast_pow, Nat.cast_ofNat]
  have positive := Nat.two_pow_pos 1074
  rw [isPlain, decide_eq_true_eq, magnitude_eq_zero_iff, magnitude, cast 1074]
  generalize 2 ^ 1074 = unit at positive
  have positive' : (0 : ℚ) < unit := Nat.cast_pos.mpr positive
  rw [div_lt_iff₀ positive', le_div_iff₀ positive', div_mul_eq_mul_div, one_mul,
    div_le_iff₀' (by norm_num)]
  exact_mod_cast Iff.rfl

/-- Written with a power of ten are the finite doubles outside the plain range. -/
theorem isScientific_iff : x.IsScientific ↔ x.rank < infinityRank ∧ isPlain x.rank = false := by
  rw [IsScientific, ← Bool.not_eq_true, isPlain_eq_true_iff, not_or]

end Magnitude

end Double

end Formula
