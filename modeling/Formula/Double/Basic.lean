/-!
# Double-precision numbers

A double is a sign and a *rank*: the place of its magnitude among all magnitudes, in increasing
order. Rank `0` is zero, then come the subnormal and the normal magnitudes, then infinity, and
the ranks above infinity are the values that are not numbers. The rank is the low 63 bits of the
interchange encoding, so the correspondence with bit patterns is immediate, and the order of
magnitudes is the order of ranks.

## Main definitions

* `Double` — sign and rank
* `Double.ofBits`, `Double.toBits` — the 64-bit interchange encoding
* `Double.units` — the magnitude of a rank as a whole multiple of `2 ^ (-1074)`
* `Double.numEq` — equality as numbers

## Main results

* `Double.units_lt_units` — the order of magnitudes is the order of ranks
-/

namespace Formula

-- A power of whole numbers is the built-in one, whatever else a module imports.
attribute [instance (2000), default_instance 20000] instPowNat

/-- A double-precision number. -/
structure Double where
  /-- The sign bit: set for numbers below zero and for the negative zero. -/
  negative : Bool
  /-- The place of the magnitude among all magnitudes, in increasing order. -/
  rank : Nat
  /-- Magnitudes are encoded in 63 bits. -/
  rank_lt : rank < 2 ^ 63
deriving DecidableEq, Repr

namespace Double

/-- The double with the given 64-bit encoding: the sign bit, then the rank. -/
def ofBits (bits : UInt64) : Double where
  negative := decide (2 ^ 63 ≤ bits.toNat)
  rank := bits.toNat % 2 ^ 63
  rank_lt := Nat.mod_lt _ (by decide)

/-- The 64-bit encoding of a double. -/
def toBits (x : Double) : UInt64 :=
  UInt64.ofNat (if x.negative then 2 ^ 63 + x.rank else x.rank)

/-- The rank of infinity. -/
def infinityRank : Nat := 2047 * 2 ^ 52

/-- Is the value not a number? -/
def isNaN (x : Double) : Bool := decide (infinityRank < x.rank)

/-- Equality as numbers: the two zeros are equal, and what is not a number equals nothing. -/
def numEq (x y : Double) : Bool :=
  !x.isNaN && !y.isNaN && (decide (x.rank = 0 ∧ y.rank = 0) || decide (x = y))

/-- The magnitude of a rank as a multiple of `2 ^ (-1074)`, the least positive magnitude. The first
`2 ^ 52` ranks are the multiples themselves; after that each run of `2 ^ 52` ranks has twice the
spacing of the run before it. At the rank of infinity the formula goes on to `2 ^ 1024`. -/
def units (rank : Nat) : Nat :=
  if rank < 2 ^ 52 then rank else (2 ^ 52 + rank % 2 ^ 52) * 2 ^ (rank / 2 ^ 52 - 1)

/-- The ranks of run `k + 1` have the spacing `2 ^ k`. -/
theorem units_add_mul {offset : Nat} (h : offset < 2 ^ 52) (k : Nat) :
    units ((k + 1) * 2 ^ 52 + offset) = (2 ^ 52 + offset) * 2 ^ k := by
  have hd : ((k + 1) * 2 ^ 52 + offset) / 2 ^ 52 = k + 1 := by omega
  have hm : ((k + 1) * 2 ^ 52 + offset) % 2 ^ 52 = offset := by omega
  rw [units, if_neg (by omega), hd, hm, Nat.add_sub_cancel]

/-- The next rank has a larger magnitude. -/
theorem units_lt_units_succ (rank : Nat) : units rank < units (rank + 1) := by
  by_cases hsub : rank + 1 < 2 ^ 52
  · rw [units, units, if_pos (by omega), if_pos hsub]
    exact Nat.lt_succ_self rank
  by_cases hmin : rank + 1 = 2 ^ 52
  · rw [hmin, units, if_pos (by omega)]
    exact Nat.lt_of_lt_of_eq (by omega) (@units_add_mul 0 (by decide) 0).symm
  · -- Both ranks lie in runs of normal magnitudes, the same one or two consecutive ones.
    obtain ⟨k, offset, ho, rfl⟩ : ∃ k offset, offset < 2 ^ 52 ∧ rank = (k + 1) * 2 ^ 52 + offset :=
      ⟨rank / 2 ^ 52 - 1, rank % 2 ^ 52, Nat.mod_lt _ (by decide), by omega⟩
    rw [units_add_mul ho]
    have hpow := Nat.two_pow_pos k
    by_cases hlast : offset + 1 < 2 ^ 52
    · rw [Nat.add_assoc, units_add_mul hlast]
      exact Nat.mul_lt_mul_of_pos_right (by omega) hpow
    · have hnext : (k + 1) * 2 ^ 52 + offset + 1 = (k + 1 + 1) * 2 ^ 52 + 0 := by omega
      have hdouble : 2 ^ (k + 1) = 2 * 2 ^ k := by rw [Nat.pow_succ, Nat.mul_comm]
      rw [hnext, units_add_mul (by decide), hdouble, ← Nat.mul_assoc]
      exact Nat.mul_lt_mul_of_pos_right (by omega) hpow

/-- The order of magnitudes is the order of ranks. -/
theorem units_lt_units {a b : Nat} (h : a < b) : units a < units b := by
  induction b with
  | zero => exact absurd h (Nat.not_lt_zero a)
  | succ b ih =>
    rcases Nat.lt_succ_iff_lt_or_eq.mp h with hlt | rfl
    · exact Nat.lt_trans (ih hlt) (units_lt_units_succ b)
    · exact units_lt_units_succ a

end Double

end Formula
