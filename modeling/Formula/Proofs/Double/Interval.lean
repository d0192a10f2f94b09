import Mathlib.Tactic.Linarith
import Mathlib.Tactic.Ring
import Formula.Proofs.Double.Magnitude
import Formula.Proofs.Double.Shortest

/-!
# The nearest double

The double nearest to a rational number that is not below zero is the one whose magnitude differs
least from it. Of two equally near ones it is the one with the even rank, and from half way between
the largest finite magnitude and `2 ^ 1024` on it is infinity. There is only one such double, and it
does not become smaller when the number becomes larger. It is found by the interval around a
magnitude that reaches half way to the two next to it: every number that is not below zero lies in
such an interval, and rounding finds the one that a number lies in.

## Main definitions

* `Double.rankMagnitude` — the magnitude of a rank
* `Double.InInterval` — does a number lie in the interval of a rank?
* `Double.IsNearest` — is a double the nearest one to a number?

## Main results

* `Double.isNearest_ofRatio` — rounding a ratio gives the nearest double
* `Double.IsNearest.unique` — a number has one nearest double at most
* `Double.IsNearest.magnitude_le_magnitude` — a larger number has no smaller nearest double
-/

namespace Formula

namespace Double

/-- The magnitude of a rank, where that of infinity counts as `2 ^ 1024`. -/
def rankMagnitude (rank : Nat) : ℚ := units rank / 2 ^ 1074

/-- Does the number lie between the middles to the magnitudes next to that of `rank`? A middle
belongs to the even rank. -/
@[mk_iff inInterval_iff]
structure InInterval (rank : Nat) (q : ℚ) : Prop where
  low : rankMagnitude (rank - 1) + rankMagnitude rank ≤ 2 * q
  high : 2 * q ≤ rankMagnitude rank + rankMagnitude (rank + 1)
  odd : rank % 2 = 1 → rankMagnitude (rank - 1) + rankMagnitude rank < 2 * q ∧
    2 * q < rankMagnitude rank + rankMagnitude (rank + 1)

/-- Is `x` the double nearest to `q`? Infinity is nearest from half way between the largest finite
magnitude and `2 ^ 1024` on. No finite double is nearer than a finite nearest one, and if one is
equally near, then the nearest one has the even rank. -/
structure IsNearest (q : ℚ) (x : Double) : Prop where
  unsigned : x.negative = false
  number : x.isNaN = false
  infinite_iff : x.rank = infinityRank ↔ 2 ^ 1024 - 2 ^ 970 ≤ q
  nearest : x.rank < infinityRank →
    ∀ y : Double, y.rank < infinityRank → |q - x.magnitude| ≤ |q - y.magnitude|
  even_of_tie : x.rank < infinityRank → ∀ y : Double, y.rank < infinityRank → y.rank ≠ x.rank →
    |q - y.magnitude| = |q - x.magnitude| → x.rank % 2 = 0

/-! ### Magnitudes -/

section Magnitudes

variable {a b rank : Nat} {x : Double}

theorem magnitude_eq (x : Double) : x.magnitude = rankMagnitude x.rank := rfl

/-- The order of magnitudes is the order of ranks. -/
theorem strictMono_rankMagnitude : StrictMono rankMagnitude := by
  intro a b lt
  have unit : (0 : ℚ) < 2 ^ 1074 := pow_pos two_pos 1074
  apply div_lt_div_of_pos_right _ unit
  exact_mod_cast units_lt_units lt

theorem rankMagnitude_zero : rankMagnitude 0 = 0 := by simp [rankMagnitude, units]

theorem rankMagnitude_one : rankMagnitude 1 = 1 / 2 ^ 1074 := by simp [rankMagnitude, units]

/-- The magnitudes of normal doubles: a whole number of 53 binary digits, times a power of two. -/
theorem rankMagnitude_add_mul {offset : Nat} (small : offset < 2 ^ 52) (k : Nat) :
    rankMagnitude ((k + 1) * 2 ^ 52 + offset) = (2 ^ 52 + offset) * 2 ^ k / 2 ^ 1074 := by
  rw [rankMagnitude, units_add_mul small]
  push_cast
  rfl

theorem rankMagnitude_infinityRank : rankMagnitude infinityRank = 2 ^ 1024 := by
  have split : infinityRank = (2046 + 1) * 2 ^ 52 + 0 := rfl
  have spacing : (2 : ℚ) ^ 2046 = 2 ^ 972 * 2 ^ 1074 := by rw [← pow_add]
  rw [split, rankMagnitude_add_mul (by decide), spacing, ← mul_assoc,
    mul_div_cancel_right₀ _ (pow_ne_zero 1074 two_ne_zero), Nat.cast_zero, add_zero, ← pow_add]

/-- The largest finite magnitude. -/
theorem rankMagnitude_infinityRank_sub_one :
    rankMagnitude (infinityRank - 1) = 2 ^ 1024 - 2 ^ 971 := by
  have split : infinityRank - 1 = (2045 + 1) * 2 ^ 52 + (2 ^ 52 - 1) := rfl
  have spacing : (2 : ℚ) ^ 2045 = 2 ^ 971 * 2 ^ 1074 := by rw [← pow_add]
  have end' : (2 : ℚ) ^ 1024 = 2 ^ 53 * 2 ^ 971 := by rw [← pow_add]
  rw [split, rankMagnitude_add_mul (by decide), spacing, end', ← mul_assoc,
    mul_div_cancel_right₀ _ (pow_ne_zero 1074 two_ne_zero)]
  generalize (2 : ℚ) ^ 971 = step
  norm_num
  ring

/-- A magnitude is a whole number of the finest power of ten that the digits are searched with. -/
theorem rankMagnitude_eq_div (rank : Nat) :
    rankMagnitude rank = (decimalUnits rank : ℚ) / 10 ^ 1074 := by
  have split (limit : Nat) : (units rank : ℚ) / 2 ^ limit =
      ((units rank * 5 ^ limit : Nat) : ℚ) / 10 ^ limit := by
    have five : (5 : ℚ) ^ limit ≠ 0 := pow_ne_zero limit (by norm_num)
    rw [show (10 : ℚ) = 2 * 5 by norm_num, mul_pow, Nat.cast_mul, Nat.cast_pow, Nat.cast_ofNat,
      mul_div_mul_right _ _ five]
  exact split 1074

end Magnitudes

/-! ### Intervals -/

section Intervals

variable {rank other : Nat} {q q' : ℚ}

theorem add_div_le_iff {a b num den unit : Nat} (pos : 0 < den) (unitPos : 0 < unit) :
    (a / unit + b / unit : ℚ) ≤ 2 * (num / den) ↔ (a + b) * den ≤ 2 * (num * unit) := by
  have denPos : (0 : ℚ) < den := Nat.cast_pos.mpr pos
  have unitPos' : (0 : ℚ) < unit := Nat.cast_pos.mpr unitPos
  rw [← add_div, ← mul_div_assoc, div_le_div_iff₀ unitPos' denPos, mul_assoc 2]
  exact_mod_cast Iff.rfl

theorem le_add_div_iff {a b num den unit : Nat} (pos : 0 < den) (unitPos : 0 < unit) :
    2 * (num / den) ≤ (a / unit + b / unit : ℚ) ↔ 2 * (num * unit) ≤ (a + b) * den := by
  have denPos : (0 : ℚ) < den := Nat.cast_pos.mpr pos
  have unitPos' : (0 : ℚ) < unit := Nat.cast_pos.mpr unitPos
  rw [← add_div, ← mul_div_assoc, div_le_div_iff₀ denPos unitPos', mul_assoc 2]
  exact_mod_cast Iff.rfl

/-- A ratio lies in an interval if, as a number of units, it lies between the ends. -/
theorem inInterval_div_iff {num den : Nat} (pos : 0 < den) :
    InInterval rank (num / den) ↔ Covers rank (num * 2 ^ 1074) den := by
  have cast (n : ℕ) : (2 : ℚ) ^ n = ((2 ^ n : ℕ) : ℚ) := by rw [Nat.cast_pow, Nat.cast_ofNat]
  have unitPos := Nat.two_pow_pos 1074
  rw [inInterval_iff]
  simp only [rankMagnitude, cast 1074, Covers, ← not_le]
  generalize 2 ^ 1074 = unit at unitPos
  simp only [add_div_le_iff pos unitPos, le_add_div_iff pos unitPos]

/-- Every ratio lies in an interval, and rounding finds the rank of that, unless it is beyond
infinity. -/
theorem exists_inInterval (num : Nat) {den : Nat} (pos : 0 < den) :
    ∃ rank, InInterval rank (num / den) ∧ rankOfRatio num den = min infinityRank rank := by
  obtain ⟨rank, computed, covers⟩ := exists_covers num pos
  exact ⟨rank, (inInterval_div_iff pos).mpr covers, computed⟩

/-- A magnitude lies in its own interval. -/
theorem inInterval_rankMagnitude (rank : Nat) : InInterval rank (rankMagnitude rank) := by
  have before := strictMono_rankMagnitude.monotone (Nat.sub_le rank 1)
  have next := strictMono_rankMagnitude (Nat.lt_succ_self rank)
  refine ⟨by linarith, by linarith, fun odd => ?_⟩
  have := strictMono_rankMagnitude (show rank - 1 < rank by omega)
  constructor <;> linarith

/-- With two numbers an interval has all those between them. -/
theorem InInterval.of_between {low high : ℚ} (lowInside : InInterval rank low)
    (highInside : InInterval rank high) (above : low ≤ q) (below : q ≤ high) :
    InInterval rank q where
  low := by linarith [lowInside.low]
  high := by linarith [highInside.high]
  odd isOdd := by
    have := (lowInside.odd isOdd).1
    have := (highInside.odd isOdd).2
    constructor <;> linarith

/-- No magnitude is nearer to a number than that of its interval. -/
theorem InInterval.abs_sub_le (inside : InInterval rank q) (other : Nat) :
    |q - rankMagnitude rank| ≤ |q - rankMagnitude other| := by
  have low := inside.low
  have high := inside.high
  rcases Nat.lt_trichotomy other rank with lt | rfl | gt
  · have smaller := strictMono_rankMagnitude lt
    have atMost := strictMono_rankMagnitude.monotone (Nat.le_sub_one_of_lt lt)
    apply (abs_le.mpr _).trans (le_abs_self _)
    constructor <;> linarith
  · exact le_refl _
  · have larger := strictMono_rankMagnitude gt
    have atLeast := strictMono_rankMagnitude.monotone (Nat.succ_le_of_lt gt)
    apply (abs_le.mpr _).trans (neg_le_abs _)
    constructor <;> linarith

/-- All other magnitudes are further from a number than an odd one to whose interval it belongs. -/
theorem InInterval.abs_sub_lt (inside : InInterval rank q) (odd : rank % 2 = 1)
    (differs : other ≠ rank) : |q - rankMagnitude rank| < |q - rankMagnitude other| := by
  obtain ⟨low, high⟩ := inside.odd odd
  rcases Nat.lt_or_gt_of_ne differs with lt | gt
  · have smaller := strictMono_rankMagnitude lt
    have atMost := strictMono_rankMagnitude.monotone (Nat.le_sub_one_of_lt lt)
    apply (abs_lt.mpr _).trans_le (le_abs_self _)
    constructor <;> linarith
  · have larger := strictMono_rankMagnitude gt
    have atLeast := strictMono_rankMagnitude.monotone (Nat.succ_le_of_lt gt)
    apply (abs_lt.mpr _).trans_le (neg_le_abs _)
    constructor <;> linarith

/-- The interval of infinity begins half way between the largest finite magnitude and
`2 ^ 1024`. -/
theorem InInterval.infinityRank_le_iff (inside : InInterval rank q) :
    infinityRank ≤ rank ↔ 2 ^ 1024 - 2 ^ 970 ≤ q := by
  have last := rankMagnitude_infinityRank_sub_one
  have limit := rankMagnitude_infinityRank
  have step : (2 : ℚ) ^ 971 = 2 ^ 970 * 2 := pow_succ 2 970
  generalize (2 : ℚ) ^ 971 = double at last step
  generalize (2 : ℚ) ^ 970 = half at step ⊢
  generalize (2 : ℚ) ^ 1024 = top at last limit ⊢
  have mono := strictMono_rankMagnitude.monotone
  constructor
  · intro le
    have := mono le
    have := mono (Nat.sub_le_sub_right le 1)
    have := inside.low
    linarith
  · intro le
    by_contra finite
    rw [not_le] at finite
    have := mono (Nat.succ_le_of_lt finite)
    have := mono (Nat.le_sub_one_of_lt finite)
    by_cases odd : rank % 2 = 1
    · have := (inside.odd odd).2
      linarith
    · -- The largest finite rank is odd, so this one is further down.
      have further : rank < infinityRank - 1 := by
        simp only [infinityRank] at finite ⊢
        omega
      have := strictMono_rankMagnitude further
      have := inside.high
      linarith

/-- A number that is nearer to the larger of two is not below the middle. -/
theorem add_le_of_abs_sub_le {a b : ℚ} (lt : a < b) (nearer : |q - b| ≤ |q - a|) :
    a + b ≤ 2 * q := by
  by_contra below
  have further : |q - a| < |q - b| := by
    apply (abs_lt.mpr _).trans_le (neg_le_abs _)
    constructor <;> linarith
  linarith

/-- A number that is nearer to the smaller of two is not above the middle. -/
theorem le_add_of_abs_sub_le {a b : ℚ} (lt : a < b) (nearer : |q - a| ≤ |q - b|) :
    2 * q ≤ a + b := by
  by_contra above
  have further : |q - b| < |q - a| := by
    apply (abs_lt.mpr _).trans_le (le_abs_self _)
    constructor <;> linarith
  linarith

end Intervals

/-! ### Nearest doubles -/

section Nearest

variable {rank : Nat} {q q' : ℚ} {x y : Double}

/-- The double of the interval that a number lies in is the nearest one. -/
theorem InInterval.isNearest (inside : InInterval rank q) (unsigned : x.negative = false)
    (same : x.rank = min infinityRank rank) : IsNearest q x where
  unsigned := unsigned
  number := by simp [isNaN, same]
  infinite_iff := by
    rw [same, ← inside.infinityRank_le_iff]
    exact min_eq_left_iff
  nearest finite y _ := by
    obtain rfl : x.rank = rank := by omega
    exact inside.abs_sub_le y.rank
  even_of_tie finite y _ differs tie := by
    obtain rfl : x.rank = rank := by omega
    by_contra odd
    have nearer := inside.abs_sub_lt (by omega) differs
    rw [magnitude_eq, magnitude_eq] at tie
    exact absurd tie nearer.ne'

/-- Rounding a ratio gives the nearest double. -/
theorem isNearest_ofRatio (num : Nat) {den : Nat} (pos : 0 < den) :
    IsNearest (num / den) (.ofRatio num den) := by
  obtain ⟨rank, inside, computed⟩ := exists_inInterval num pos
  exact inside.isNearest rfl computed

-- Half way between the largest finite magnitude and `2 ^ 1024`, infinity is the nearest.
example : (ofRatio (2 ^ 1024 - 2 ^ 970) 1).rank = infinityRank := by decide +kernel

theorem IsNearest.rank_le (nearest : IsNearest q x) : x.rank ≤ infinityRank := by
  simpa [isNaN] using nearest.number

/-- A number has one nearest double at most. -/
theorem IsNearest.unique (first : IsNearest q x) (second : IsNearest q y) : x = y := by
  apply ext_rank (first.unsigned.trans second.unsigned.symm)
  by_cases infinite : x.rank = infinityRank
  · rw [infinite, second.infinite_iff.mpr (first.infinite_iff.mp infinite)]
  have finite : x.rank < infinityRank := lt_of_le_of_ne first.rank_le infinite
  have finite' : y.rank < infinityRank := by
    apply lt_of_le_of_ne second.rank_le
    exact fun infinite' => infinite (first.infinite_iff.mpr (second.infinite_iff.mp infinite'))
  rcases Nat.lt_trichotomy x.rank y.rank with lt | same | gt
  · exact absurd lt (not_rank_lt first second finite finite')
  · exact same
  · exact absurd gt (not_rank_lt second first finite' finite)
where
  not_rank_lt {x y : Double} (first : IsNearest q x) (second : IsNearest q y)
      (finite : x.rank < infinityRank) (finite' : y.rank < infinityRank) :
      ¬x.rank < y.rank := by
    intro lt
    have tie := (first.nearest finite y finite').antisymm (second.nearest finite' x finite)
    have even := first.even_of_tie finite y finite' lt.ne' tie.symm
    have even' := second.even_of_tie finite' x finite lt.ne tie
    -- Between two even ranks that are equally near there is one that is nearer.
    let between : Double := ⟨false, x.rank + 1, by have := y.rank_lt; omega⟩
    have atMost := first.nearest finite between (show x.rank + 1 < infinityRank by omega)
    have below := strictMono_rankMagnitude (Nat.lt_succ_self x.rank)
    have above := strictMono_rankMagnitude (show x.rank + 1 < y.rank by omega)
    have low := le_add_of_abs_sub_le (below.trans above) tie.le
    have high := add_le_of_abs_sub_le (below.trans above) tie.ge
    have nearer := le_add_of_abs_sub_le below atMost
    linarith

/-- Ratios of the same value are rounded to the same double. -/
theorem ofRatio_eq_of_mul_eq {num den num' den' : Nat} (pos : 0 < den) (pos' : 0 < den')
    (same : num * den' = num' * den) : ofRatio num den = ofRatio num' den' := by
  have denPos : (0 : ℚ) < den := Nat.cast_pos.mpr pos
  have denPos' : (0 : ℚ) < den' := Nat.cast_pos.mpr pos'
  have ratio : (num : ℚ) / den = num' / den' := by
    rw [div_eq_div_iff denPos.ne' denPos'.ne']
    exact_mod_cast same
  have nearest := isNearest_ofRatio num pos
  rw [ratio] at nearest
  exact nearest.unique (isNearest_ofRatio num' pos')

/-- A larger number has no smaller nearest double. -/
theorem IsNearest.magnitude_le_magnitude (le : q ≤ q') (first : IsNearest q x)
    (second : IsNearest q' y) : x.magnitude ≤ y.magnitude := by
  by_contra smaller
  rw [not_le] at smaller
  have lt : y.rank < x.rank := strictMono_rankMagnitude.lt_iff_lt.mp smaller
  have finite' : y.rank < infinityRank := lt.trans_le first.rank_le
  have finite : x.rank < infinityRank := by
    apply lt_of_le_of_ne first.rank_le
    exact fun infinite =>
      finite'.ne (second.infinite_iff.mpr ((first.infinite_iff.mp infinite).trans le))
  -- Both numbers would be half way between the two magnitudes, and have one nearest double.
  have low := add_le_of_abs_sub_le smaller (first.nearest finite y finite')
  have high := le_add_of_abs_sub_le smaller (second.nearest finite' x finite)
  obtain rfl : q = q' := by linarith
  exact lt.ne (congrArg rank (second.unique first))

/-- The interval of zero ends at half the least positive magnitude. -/
theorem inInterval_zero (nonneg : 0 ≤ q) (small : q ≤ 1 / 2 ^ 1075) : InInterval 0 q := by
  have half : (2 : ℚ) ^ 1075 = 2 ^ 1074 * 2 := pow_succ 2 1074
  rw [half, ← div_div, ← rankMagnitude_one] at small
  constructor
  · simpa [rankMagnitude_zero] using nonneg
  · rw [rankMagnitude_zero]
    linarith
  · exact fun odd => absurd odd (by decide)

/-- The numbers up to half the least positive magnitude have zero as their nearest double. -/
theorem IsNearest.rank_eq_zero (nearest : IsNearest q x) (nonneg : 0 ≤ q)
    (small : q ≤ 1 / 2 ^ 1075) : x.rank = 0 := by
  have zero : IsNearest q ⟨false, 0, by decide⟩ := (inInterval_zero nonneg small).isNearest rfl rfl
  rw [nearest.unique zero]

theorem num_toNat_div_den (nonneg : 0 ≤ q) : (q.num.toNat : ℚ) / q.den = q := by
  have whole : (q.num.toNat : ℤ) = q.num := Int.toNat_of_nonneg (Rat.num_nonneg.mpr nonneg)
  rw [← Int.cast_natCast, whole, Rat.num_div_den]

/-- A number that is not below zero lies in the interval of its nearest double, if that is
finite. -/
theorem IsNearest.inInterval (nearest : IsNearest q x) (nonneg : 0 ≤ q)
    (finite : x.rank < infinityRank) : InInterval x.rank q := by
  obtain ⟨rank, inside, computed⟩ := exists_inInterval q.num.toNat q.den_pos
  rw [num_toNat_div_den nonneg] at inside
  have same : x.rank = min infinityRank rank := by
    rw [nearest.unique (inside.isNearest (x := .ofRatio q.num.toNat q.den) rfl computed)]
    exact computed
  obtain rfl : x.rank = rank := by omega
  exact inside

end Nearest

end Double

end Formula
