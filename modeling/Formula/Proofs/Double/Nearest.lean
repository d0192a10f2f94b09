import Formula.Double.Rounding

/-!
# The nearest magnitude

The magnitude of a rank is the nearest one to a ratio if the ratio lies between the two middles to
the neighbouring magnitudes; a ratio in a middle belongs to the even rank. Every ratio lies in one
such interval only, and the computed rank is the one whose interval the ratio lies in. Ratios are
taken as numbers of units here, and ranks do not stop at infinity.

## Main definitions

* `Double.Covers` — does a ratio lie in the interval of a rank?

## Main results

* `Double.Covers.unique` — a ratio lies in the interval of one rank at most
* `Double.rankOfRatio_eq_iff` — rounding gives the rank whose interval the ratio lies in
-/

namespace Formula

/-! ### Rounding to a whole number -/

/-- A ratio is no further than one half from the whole number it is rounded to, and less than that
if the number is odd. -/
theorem roundHalfEven_spec {num den whole : Nat} (pos : 0 < den)
    (rounded : roundHalfEven num den = whole) :
    2 * whole * den ≤ 2 * num + den ∧ 2 * num ≤ 2 * whole * den + den ∧
      (whole % 2 = 1 → 2 * whole * den < 2 * num + den ∧ 2 * num < 2 * whole * den + den) := by
  have division := Nat.div_add_mod' num den
  have small := Nat.mod_lt num pos
  unfold roundHalfEven at rounded
  generalize num / den = below at division rounded
  generalize num % den = rest at division rounded small
  have twice : 2 * below * den = 2 * (below * den) := Nat.mul_assoc ..
  have twiceNext : 2 * (below + 1) * den = 2 * (below * den) + 2 * den := by
    rw [Nat.mul_assoc, Nat.add_mul, Nat.one_mul, Nat.mul_add]
  simp only at rounded
  split at rounded
  · subst rounded
    omega
  · split at rounded
    · subst rounded
      omega
    · -- In the middle the even one of the two neighbours is taken.
      rcases Nat.mod_two_eq_zero_or_one below with even | odd
      · rw [even, Nat.add_zero] at rounded
        subst rounded
        omega
      · rw [odd] at rounded
        subst rounded
        omega

/-- Rounding does not pass a whole number from below. -/
theorem roundHalfEven_le {num den bound : Nat} (pos : 0 < den) (small : num ≤ bound * den) :
    roundHalfEven num den ≤ bound := by
  obtain ⟨low, _, _⟩ := roundHalfEven_spec pos (rfl : roundHalfEven num den = _)
  have scaled : 2 * roundHalfEven num den * den ≤ (2 * bound + 1) * den := by
    rw [Nat.add_mul, Nat.mul_assoc 2 bound]
    omega
  have := Nat.le_of_mul_le_mul_right scaled pos
  omega

/-- Rounding does not pass a whole number from above. -/
theorem le_roundHalfEven {num den bound : Nat} (pos : 0 < den) (large : bound * den ≤ num) :
    bound ≤ roundHalfEven num den := by
  obtain ⟨_, high, _⟩ := roundHalfEven_spec pos (rfl : roundHalfEven num den = _)
  have scaled : 2 * bound * den ≤ (2 * roundHalfEven num den + 1) * den := by
    rw [Nat.add_mul, Nat.mul_assoc 2 bound]
    omega
  have := Nat.le_of_mul_le_mul_right scaled pos
  omega

namespace Double

/-- A double is determined by its sign and the rank of its magnitude. -/
theorem ext_rank {x y : Double} (sign : x.negative = y.negative) (rank : x.rank = y.rank) :
    x = y := by
  obtain ⟨negative, rank, _⟩ := x
  obtain ⟨negative', rank', _⟩ := y
  simp_all

/-- Does the ratio `num / den`, as a number of units, lie between the middles to the magnitudes next
to that of `rank`? A middle belongs to the even rank. -/
def Covers (rank num den : Nat) : Prop :=
  (units (rank - 1) + units rank) * den ≤ 2 * num ∧
    2 * num ≤ (units rank + units (rank + 1)) * den ∧
    (rank % 2 = 1 → (units (rank - 1) + units rank) * den < 2 * num ∧
      2 * num < (units rank + units (rank + 1)) * den)

section Covers

variable {rank num den shift whole : Nat}

/-- A larger rank has a larger magnitude. -/
theorem units_le_units {a b : Nat} (le : a ≤ b) : units a ≤ units b := by
  rcases Nat.lt_or_eq_of_le le with lt | rfl
  · exact Nat.le_of_lt (units_lt_units lt)
  · exact Nat.le_refl _

/-- Nothing at all lies in the interval of the first rank. -/
theorem covers_zero (den : Nat) : Covers 0 0 den :=
  ⟨Nat.le_of_eq (by simp [units]), Nat.zero_le _, fun odd => absurd odd (by decide)⟩

/-- A ratio lies in the interval of one rank at most. -/
theorem Covers.unique {other : Nat} (pos : 0 < den) (covers : Covers rank num den)
    (coversOther : Covers other num den) : rank = other := by
  -- Intervals are in the order of their ranks.
  rcases Nat.lt_trichotomy rank other with lt | same | gt
  · exact absurd lt (not_lt_of_covers pos covers coversOther)
  · exact same
  · exact absurd gt (not_lt_of_covers pos coversOther covers)
where
  not_lt_of_covers {a b : Nat} (pos : 0 < den) (covers : Covers a num den)
      (coversLater : Covers b num den) : ¬a < b := by
    intro lt
    have first : units a ≤ units (b - 1) := units_le_units (by omega)
    have second : units (a + 1) ≤ units b := units_le_units lt
    have between := Nat.mul_le_mul_right den (Nat.add_le_add first second)
    by_cases next : b = a + 1
    · -- The common end of two neighbouring intervals belongs to one of them.
      rcases Nat.mod_two_eq_zero_or_one a with even | odd
      · have := coversLater.2.2 (by omega)
        have := covers.2.1
        omega
      · have := covers.2.2 odd
        have := coversLater.1
        omega
    · have apart : units (a + 1) < units b := units_lt_units (by omega)
      have strict := Nat.mul_lt_mul_of_pos_right (Nat.add_lt_add_of_le_of_lt first apart) pos
      have := covers.2.1
      have := coversLater.1
      omega

/-- The magnitudes of a run, counted from the run before it, are multiples of its spacing. -/
theorem units_shift (normal : shift = 0 ∨ 2 ^ 52 ≤ whole) (le : whole ≤ 2 ^ 53) :
    units (shift * 2 ^ 52 + whole) = whole * 2 ^ shift := by
  by_cases carry : whole = 2 ^ 53
  · have split : shift * 2 ^ 52 + whole = (shift + 1 + 1) * 2 ^ 52 + 0 := by omega
    have double : 2 ^ (shift + 1) = 2 * 2 ^ shift := by rw [Nat.pow_succ, Nat.mul_comm]
    rw [split, units_add_mul (by decide), carry, double]
    omega
  by_cases subnormal : whole < 2 ^ 52
  · obtain rfl : shift = 0 := by omega
    rw [Nat.zero_mul, Nat.zero_add, units, if_pos subnormal, Nat.pow_zero, Nat.mul_one]
  · have split : shift * 2 ^ 52 + whole = (shift + 1) * 2 ^ 52 + (whole - 2 ^ 52) := by omega
    rw [split, units_add_mul (by omega), Nat.add_sub_cancel' (by omega)]

/-- Between two ranks the magnitude grows by one step of the grid, of which the smaller magnitude is
a multiple. -/
theorem exists_units_eq (rank : Nat) :
    ∃ shift whole, (shift = 0 ∧ whole = rank ∨ 2 ^ 52 ≤ whole) ∧
      units rank = whole * 2 ^ shift ∧ units (rank + 1) = (whole + 1) * 2 ^ shift := by
  by_cases subnormal : rank < 2 ^ 52
  · refine ⟨0, rank, Or.inl ⟨rfl, rfl⟩, ?_, ?_⟩
    · simpa using @units_shift 0 rank (Or.inl rfl) (by omega)
    · simpa using @units_shift 0 (rank + 1) (Or.inl rfl) (by omega)
  · have split : rank = (rank / 2 ^ 52 - 1) * 2 ^ 52 + (2 ^ 52 + rank % 2 ^ 52) := by omega
    have small := Nat.mod_lt rank (Nat.two_pow_pos 52)
    generalize rank / 2 ^ 52 - 1 = shift at split
    generalize rank % 2 ^ 52 = offset at split small
    refine ⟨shift, 2 ^ 52 + offset, Or.inr (Nat.le_add_right ..), ?_, ?_⟩
    · rw [split]
      exact units_shift (Or.inr (Nat.le_add_right ..)) (by omega)
    · rw [split, Nat.add_assoc]
      exact units_shift (Or.inr (by omega)) (by omega)

/-- One more step leads at most to the next magnitude. -/
theorem units_shift_succ_le (normal : shift = 0 ∨ 2 ^ 52 ≤ whole) (le : whole ≤ 2 ^ 53) :
    (whole + 1) * 2 ^ shift ≤ units (shift * 2 ^ 52 + whole + 1) := by
  by_cases carry : whole = 2 ^ 53
  · have split : shift * 2 ^ 52 + whole + 1 = (shift + 1 + 1) * 2 ^ 52 + 1 := by omega
    have double : 2 ^ (shift + 1) = 2 * 2 ^ shift := by rw [Nat.pow_succ, Nat.mul_comm]
    rw [split, units_add_mul (by decide), carry, double]
    omega
  · rw [Nat.add_assoc]
    exact Nat.le_of_eq (units_shift (by omega) (by omega)).symm

/-- If a ratio has at most 53 binary digits before the point of the grid, and exactly 53 on any but
the finest grid, then it lies in the interval of the rank it is rounded to. -/
theorem covers_of_rounded (pos : 0 < den) (rounded : roundHalfEven num (den * 2 ^ shift) = whole)
    (large : shift = 0 ∨ 2 ^ 52 * (den * 2 ^ shift) ≤ num)
    (small : num < 2 ^ 53 * (den * 2 ^ shift)) : Covers (shift * 2 ^ 52 + whole) num den := by
  have stepPos : 0 < den * 2 ^ shift := Nat.mul_pos pos (Nat.two_pow_pos shift)
  obtain ⟨low, high, strict⟩ := roundHalfEven_spec stepPos rounded
  rw [Nat.mul_assoc 2 whole] at low high strict
  have inSteps (n : Nat) : n * 2 ^ shift * den = n * (den * 2 ^ shift) := by
    rw [Nat.mul_assoc, Nat.mul_comm (2 ^ shift)]
  have le : whole ≤ 2 ^ 53 := rounded ▸ roundHalfEven_le stepPos (Nat.le_of_lt small)
  have normal : shift = 0 ∨ 2 ^ 52 ≤ whole :=
    large.imp_right fun large => rounded ▸ le_roundHalfEven stepPos large
  have here : units (shift * 2 ^ 52 + whole) * den = whole * (den * 2 ^ shift) := by
    rw [units_shift normal le, inSteps]
  have next := Nat.mul_le_mul_right den (units_shift_succ_le normal le)
  rw [inSteps, Nat.add_mul, Nat.one_mul] at next
  have upper : whole * (den * 2 ^ shift) + den * 2 ^ shift ≤
      units (shift * 2 ^ 52 + whole + 1) * den := next
  unfold Covers
  rw [Nat.add_mul, Nat.add_mul, here]
  by_cases up : num < whole * (den * 2 ^ shift)
  · -- What is rounded up lies above the magnitude before, which is one step away.
    have positive : 0 < whole := Nat.pos_of_ne_zero fun zero => by simp [zero] at up
    have above : shift = 0 ∨ 2 ^ 52 ≤ whole - 1 := by
      rcases large with finest | large
      · exact Or.inl finest
      · have := Nat.lt_of_mul_lt_mul_right (Nat.lt_of_le_of_lt large up)
        omega
    have before : units (shift * 2 ^ 52 + whole - 1) * den + den * 2 ^ shift =
        whole * (den * 2 ^ shift) := by
      rw [Nat.add_sub_assoc positive, units_shift above (by omega), inSteps, Nat.sub_mul,
        Nat.one_mul]
      exact Nat.sub_add_cancel (Nat.le_mul_of_pos_left _ positive)
    omega
  · -- What is not rounded up is not below its magnitude, however close the one before is.
    have before : units (shift * 2 ^ 52 + whole - 1) * den ≤ whole * (den * 2 ^ shift) := by
      rw [← here]
      exact Nat.mul_le_mul_right den (units_le_units (Nat.sub_le _ 1))
    have strictly : (shift * 2 ^ 52 + whole) % 2 = 1 →
        units (shift * 2 ^ 52 + whole - 1) * den < whole * (den * 2 ^ shift) := by
      intro odd
      rw [← here]
      exact Nat.mul_lt_mul_of_pos_right (units_lt_units (by omega)) pos
    omega

/-- The computed rank, infinity apart, is one whose interval the ratio lies in. -/
theorem exists_covers (num : Nat) (pos : 0 < den) :
    ∃ rank, rankOfRatio num den = min infinityRank rank ∧ Covers rank (num * 2 ^ 1074) den := by
  refine ⟨_, rfl, ?_⟩
  generalize num * 2 ^ 1074 = scaled
  -- The doublings of the grid are those that leave 53 binary digits of the ratio.
  have powers (n : Nat) (grid : 52 ≤ n) : 2 ^ 52 * 2 ^ (n - 52) = 2 ^ n := by
    rw [← Nat.pow_add, Nat.add_sub_cancel' grid]
  refine covers_of_rounded pos rfl ?_ ?_
  · by_cases finest : (scaled / den).log2 ≤ 52
    · exact Or.inl (Nat.sub_eq_zero_of_le finest)
    · have some : scaled / den ≠ 0 := by
        intro zero
        simp [zero] at finest
      refine Or.inr ?_
      rw [Nat.mul_comm den, ← Nat.mul_assoc, powers _ (by omega)]
      exact Nat.le_trans (Nat.mul_le_mul_right den (Nat.log2_self_le some))
        (Nat.div_mul_le_self scaled den)
  · rw [Nat.mul_comm den, ← Nat.mul_assoc, ← Nat.div_lt_iff_lt_mul pos]
    refine Nat.lt_of_lt_of_le Nat.lt_log2_self ?_
    rw [← Nat.pow_add]
    exact Nat.pow_le_pow_right (by decide) (by omega)

/-- Rounding gives the rank below infinity whose interval the ratio lies in. -/
theorem rankOfRatio_eq_iff (pos : 0 < den) (finite : rank < infinityRank) :
    rankOfRatio num den = rank ↔ Covers rank (num * 2 ^ 1074) den := by
  obtain ⟨found, computed, covers⟩ := exists_covers num pos
  rw [computed]
  constructor
  · intro same
    obtain rfl : found = rank := by omega
    exact covers
  · intro coversRank
    rw [covers.unique pos coversRank]
    exact Nat.min_eq_right (Nat.le_of_lt finite)

/-- A ratio can be expanded. -/
theorem covers_mul_iff {factor : Nat} (pos : 0 < factor) :
    Covers rank (num * factor) (den * factor) ↔ Covers rank num den := by
  have twice : 2 * (num * factor) = 2 * num * factor := (Nat.mul_assoc ..).symm
  simp only [Covers, ← Nat.mul_assoc, twice, Nat.mul_le_mul_right_iff pos,
    Nat.mul_lt_mul_right pos]

/-- Equal ratios lie in the same intervals. -/
theorem Covers.of_mul_eq {num' den' : Nat} (pos : 0 < den) (pos' : 0 < den')
    (same : num' * den = num * den') (covers : Covers rank num den) : Covers rank num' den' := by
  rw [← covers_mul_iff pos', ← same, Nat.mul_comm den, covers_mul_iff pos] at covers
  exact covers

end Covers

end Double

end Formula
