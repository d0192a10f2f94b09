import Mathlib.Data.Nat.Log
import Formula.Proofs.Double.Interval
import Formula.Proofs.Double.ReadBack

/-!
# The fewest digits

Of the numbers that a double is nearest to, its text writes one with the fewest digits, and of those
one that is nearest to the double. The search stops at the coarsest power of ten that has a multiple
in the interval of the rank. A number with fewer digits would leave a coarser power of ten between
itself and what was found, and what lies between two numbers of an interval belongs to it.

## Main definitions

* `HasDigits` — can a number be written with so many digits and a power of ten?
* `Double.IsCoarsest` — does a decimal use the coarsest power of ten, and use it best?
* `Double.IsShortest` — has a number the fewest digits of those that a double is nearest to?

## Main results

* `Double.isCoarsest_shortest` — the search starts above the interval, and misses nothing
* `Double.IsCoarsest.digits_lt`, `Double.IsCoarsest.abs_sub_le` — fewest digits, and nearest
* `Double.text_reads_back` — the text of a double, read and rounded
-/

namespace Formula

/-- Can the number be written with at most `n` digits and a power of ten? -/
def HasDigits (n : Nat) (q : ℚ) : Prop := ∃ d : Decimal, d.digits < 10 ^ n ∧ d.value = q

namespace Double

/-- Is the decimal in the interval of the rank, is none there that counts in a coarser power of ten,
and is none that counts in the same power nearer to the magnitude? -/
structure IsCoarsest (rank : Nat) (d : Decimal) : Prop where
  inside : InInterval rank d.value
  coarsest : ∀ d' : Decimal, InInterval rank d'.value → d'.exponent ≤ d.exponent
  nearest : ∀ d' : Decimal, InInterval rank d'.value → d'.exponent = d.exponent →
    |d.value - rankMagnitude rank| ≤ |d'.value - rankMagnitude rank|

/-- Has the number the fewest digits of those that `x` is nearest to, and is none with as few digits
nearer to `x`? -/
structure IsShortest (x : Double) (q : ℚ) : Prop where
  nearest : IsNearest q x
  fewest : ∀ q' n, IsNearest q' x → HasDigits n q' → HasDigits n q
  closest : ∀ q', IsNearest q' x → (∀ n, HasDigits n q → HasDigits n q') →
    |q - x.magnitude| ≤ |q' - x.magnitude|

/-! ### Decimals in an interval -/

section Decimals

variable {rank : Nat}

/-- What the search finds for a magnitude that is not zero uses the coarsest power of ten. -/
theorem isCoarsest_shortest (pos : 0 < rank) : IsCoarsest rank (shortest rank) := by
  obtain ⟨digits, place, search, rounds, nearest, coarsest⟩ :=
    exists_shortestFrom rank (((decimalUnits rank).log2 + 1) * 28 / 93 + 1)
  rw [shortest, search]
  constructor
  · exact (inInterval_value_iff rfl).mpr rounds
  · intro d' inside
    by_contra coarser
    rw [not_le] at coarser
    obtain ⟨place', place_eq⟩ : ∃ place' : Nat, d'.exponent = (place' : Int) - 1074 :=
      ⟨(d'.exponent + 1074).toNat, by simp only at coarser; omega⟩
    have finer : place < place' := by simp only [place_eq] at coarser; omega
    have rounds' := (inInterval_value_iff place_eq).mp inside
    by_cases searched : place' ≤ ((decimalUnits rank).log2 + 1) * 28 / 93 + 1
    · rw [coarsest _ _ finer searched] at rounds'
      cases rounds'
    · rw [roundsTo_eq_false_of_start_lt pos (Nat.lt_of_not_le searched)] at rounds'
      cases rounds'
  · intro d' inside same
    have le := nearest _ ((inInterval_value_iff same).mp inside)
    rw [← @Nat.cast_le ℚ, Nat.cast_natAbs, Nat.cast_natAbs] at le
    simp only [Int.cast_abs, Int.cast_sub, Int.cast_natCast] at le
    rw [value_eq_div rfl, value_eq_div same, rankMagnitude_eq_div, ← sub_div, ← sub_div, abs_div,
      abs_div]
    exact div_le_div_of_nonneg_right le (abs_nonneg _)

end Decimals

/-! ### Fewest digits -/

section Digits

variable {rank n : Nat} {d d' : Decimal} {e : Int}

theorem ten_zpow_pos (e : Int) : (0 : ℚ) < 10 ^ e := zpow_pos (by norm_num) e

/-- Zero is not in the interval of any other magnitude. -/
theorem digits_pos (pos : 0 < rank) (inside : InInterval rank d.value) : 0 < d.digits := by
  apply Nat.pos_of_ne_zero
  intro zero
  have low := inside.low
  have before := strictMono_rankMagnitude.monotone (Nat.zero_le (rank - 1))
  have positive := strictMono_rankMagnitude pos
  rw [rankMagnitude_zero] at before positive
  rw [Decimal.value, zero, Nat.cast_zero, zero_mul, mul_zero] at low
  linarith

/-- A number with at most `n` digits is less than the power of ten behind them. -/
theorem value_lt (few : d.digits < 10 ^ n) : d.value < 10 ^ (n + d.exponent) := by
  rw [Decimal.value, zpow_add₀ (by norm_num), zpow_natCast]
  apply mul_lt_mul_of_pos_right _ (ten_zpow_pos _)
  exact_mod_cast few

theorem le_value (many : 10 ^ n ≤ d.digits) : 10 ^ (n + d.exponent) ≤ d.value := by
  rw [Decimal.value, zpow_add₀ (by norm_num), zpow_natCast]
  apply mul_le_mul_of_nonneg_right _ (ten_zpow_pos _).le
  exact_mod_cast many

theorem value_one (e : Int) : (Decimal.mk 1 e).value = 10 ^ e := by
  rw [Decimal.value, Nat.cast_one, one_mul]

theorem IsCoarsest.eq_zero_of_between (coarsest : IsCoarsest rank d)
    (inside : InInterval rank d'.value) (above : d'.value ≤ 10 ^ (n + d.exponent))
    (below : 10 ^ (n + d.exponent) ≤ d.value) :
    n = 0 ∧ InInterval rank (10 ^ d.exponent) := by
  have between := inside.of_between coarsest.inside above below
  rw [← value_one] at between
  have le : (n : Int) + d.exponent ≤ d.exponent := coarsest.coarsest _ between
  obtain rfl : n = 0 := by omega
  rw [value_one, Nat.cast_zero, zero_add] at between
  exact ⟨rfl, between⟩

/-- No number in the interval has fewer digits than one with the coarsest power of ten. -/
theorem IsCoarsest.digits_lt (coarsest : IsCoarsest rank d) (pos : 0 < rank)
    (inside : InInterval rank d'.value) (few : d'.digits < 10 ^ n) : d.digits < 10 ^ n := by
  by_contra many
  have finer := coarsest.coarsest d' inside
  have above : d'.value ≤ 10 ^ (n + d.exponent) := by
    apply (value_lt few).le.trans
    exact zpow_le_zpow_right₀ (by norm_num) (by omega)
  obtain ⟨rfl, -⟩ := coarsest.eq_zero_of_between inside above (le_value (Nat.le_of_not_lt many))
  have := digits_pos pos inside
  omega

/-- The least positive magnitude is a little less than half of `10 ^ (-323)`. -/
theorem rankMagnitude_one_bounds :
    2 * rankMagnitude 1 ≤ 10 ^ (-323 : Int) ∧ 10 * 10 ^ (-323 : Int) ≤ 21 * rankMagnitude 1 := by
  have ten (n : Nat) : (10 : ℚ) ^ (-n : Int) = 1 / ((10 ^ n : Nat) : ℚ) := by
    rw [zpow_neg, zpow_natCast, Nat.cast_pow, Nat.cast_ofNat, one_div]
  have two (n : Nat) : (1 : ℚ) / 2 ^ n = 1 / ((2 ^ n : Nat) : ℚ) := by
    rw [Nat.cast_pow, Nat.cast_ofNat]
  have inverse {a b : Nat} (aPos : 0 < a) (bPos : 0 < b) (bounds : 2 * a ≤ b ∧ 10 * b ≤ 21 * a) :
      2 * (1 / b : ℚ) ≤ 1 / a ∧ 10 * (1 / a : ℚ) ≤ 21 * (1 / b) := by
    have aPos' : (0 : ℚ) < a := Nat.cast_pos.mpr aPos
    have bPos' : (0 : ℚ) < b := Nat.cast_pos.mpr bPos
    rw [mul_one_div, mul_one_div, mul_one_div, div_le_div_iff₀ bPos' aPos',
      div_le_div_iff₀ aPos' bPos', one_mul]
    exact_mod_cast bounds
  have tenPos (n : Nat) : 0 < 10 ^ n := Nat.pow_pos (by decide)
  rw [rankMagnitude_one, two 1074, show (10 : ℚ) ^ (-323 : Int) = _ from ten 323]
  exact inverse (tenPos 323) (Nat.two_pow_pos 1074) (by decide +kernel)

/-- A magnitude and the next one are counted in the same steps, and the steps are the least positive
magnitude, or the count is large. -/
theorem exists_step (rank : Nat) :
    ∃ (step : ℚ) (whole : Nat), 0 < step ∧
      (step = rankMagnitude 1 ∧ whole = rank ∨ 2 ^ 52 ≤ whole) ∧
      rankMagnitude rank = whole * step ∧ rankMagnitude (rank + 1) = whole * step + step := by
  obtain ⟨shift, whole, normal, here, next⟩ := exists_units_eq rank
  refine ⟨2 ^ shift / 2 ^ 1074, whole, by positivity, normal.imp_left ?_, ?_, ?_⟩
  · rintro ⟨rfl, rfl⟩
    rw [rankMagnitude_one, pow_zero]
    exact ⟨rfl, rfl⟩
  · rw [rankMagnitude, here, Nat.cast_mul, Nat.cast_pow, Nat.cast_ofNat, mul_div_assoc]
  · rw [rankMagnitude, next, Nat.cast_mul, Nat.cast_pow, Nat.cast_ofNat, Nat.cast_succ,
      mul_div_assoc, add_mul, one_mul]

/-- A power of ten in an interval is hardly larger than the magnitude. -/
theorem zpow_le_of_inInterval (pos : 0 < rank) (inside : InInterval rank (10 ^ e)) :
    19 * 10 ^ e ≤ 20 * rankMagnitude rank := by
  obtain ⟨step, whole, stepPos, normal, here, next⟩ := exists_step rank
  have high := inside.high
  have atLeast {bound : Nat} (le : bound ≤ whole) : bound * step ≤ whole * step :=
    mul_le_mul_of_nonneg_right (Nat.cast_le.mpr le) stepPos.le
  rw [here, next] at high
  rw [here]
  by_cases large : 10 ≤ whole
  · have := atLeast large
    push_cast at this
    linarith
  -- Of the least magnitudes only the second one has a power of ten in its interval.
  obtain ⟨rfl, rfl⟩ := normal.resolve_right (by omega)
  obtain ⟨low, up⟩ := rankMagnitude_one_bounds
  have shifted (k : Int) : (10 : ℚ) ^ (k + 1) = 10 ^ k * 10 := zpow_add_one₀ (by norm_num) k
  rcases lt_trichotomy e (-323) with below | rfl | above
  · have le : (10 : ℚ) ^ (e + 1) ≤ 10 ^ (-323 : Int) := zpow_le_zpow_right₀ (by norm_num) below
    have := atLeast (show 1 ≤ whole from pos)
    rw [shifted] at le
    push_cast at this
    linarith
  · have second : 2 ≤ whole := by
      by_contra first
      obtain rfl : whole = 1 := by omega
      rw [Nat.cast_one, one_mul] at high
      linarith
    have := atLeast second
    push_cast at this
    linarith
  · have le : (10 : ℚ) ^ (-323 + 1 : Int) ≤ 10 ^ e := zpow_le_zpow_right₀ (by norm_num) above
    have atMost : whole * rankMagnitude 1 ≤ 9 * rankMagnitude 1 :=
      mul_le_mul_of_nonneg_right (by exact_mod_cast Nat.le_of_not_lt large) stepPos.le
    rw [shifted] at le
    linarith

/-- Of the numbers in the interval with as few digits, none is nearer to the magnitude. -/
theorem IsCoarsest.abs_sub_le (coarsest : IsCoarsest rank d) (pos : 0 < rank)
    (inside : InInterval rank d'.value) (many : 10 ^ n ≤ d.digits)
    (few : d'.digits < 10 ^ (n + 1)) :
    |d.value - rankMagnitude rank| ≤ |d'.value - rankMagnitude rank| := by
  by_cases same : d'.exponent = d.exponent
  · exact coarsest.nearest d' inside same
  have finer := lt_of_le_of_ne (coarsest.coarsest d' inside) same
  have above : d'.value ≤ 10 ^ (n + d.exponent) := by
    apply (value_lt few).le.trans
    exact zpow_le_zpow_right₀ (by norm_num) (by push_cast; omega)
  -- The power of ten between the two numbers is not coarser, so there is one digit only.
  obtain ⟨rfl, power⟩ := coarsest.eq_zero_of_between inside above (le_value many)
  have nearer := coarsest.nearest ⟨1, d.exponent⟩ (by rwa [value_one]) rfl
  have large := zpow_le_of_inInterval pos power
  have small : 10 * d'.value ≤ 9 * 10 ^ d.exponent := by
    have step : (10 : ℚ) ^ d.exponent = 10 ^ (d.exponent - 1) * 10 := by
      rw [← zpow_add_one₀ (by norm_num), sub_add_cancel]
    have le : (10 : ℚ) ^ d'.exponent ≤ 10 ^ (d.exponent - 1) :=
      zpow_le_zpow_right₀ (by norm_num) (by omega)
    have digit : (d'.digits : ℚ) ≤ 9 := by exact_mod_cast Nat.le_of_lt_succ few
    have positive := ten_zpow_pos d'.exponent
    rw [Decimal.value, step]
    nlinarith
  have positive := ten_zpow_pos d.exponent
  rw [value_one] at nearer
  apply nearer.trans
  rw [abs_sub_comm, abs_sub_comm d'.value]
  apply (abs_le.mpr _).trans (le_abs_self _)
  constructor <;> linarith

end Digits

/-! ### The text of a double -/

section Text

variable {x : Double}

/-- The decimal that is found for a magnitude which is not zero is the shortest one. -/
theorem IsCoarsest.isShortest {d : Decimal} (coarsest : IsCoarsest x.rank d) (pos : 0 < x.rank)
    (unsigned : x.negative = false) (finite : x.rank < infinityRank) : IsShortest x d.value where
  nearest := coarsest.inside.isNearest unsigned (Nat.min_eq_right finite.le).symm
  fewest := by
    rintro _ n near ⟨d', few, rfl⟩
    exact ⟨d, coarsest.digits_lt pos (near.inInterval d'.value_nonneg finite) few, rfl⟩
  closest := by
    intro q' near asFew
    have some := (digits_pos pos coarsest.inside).ne'
    -- As few digits as `d` has: their number is one more than the logarithm.
    obtain ⟨d', few, rfl⟩ := asFew _ ⟨d, Nat.lt_pow_succ_log_self (by decide) d.digits, rfl⟩
    have inside := near.inInterval d'.value_nonneg finite
    exact coarsest.abs_sub_le pos inside (Nat.pow_log_le_self 10 some) few

/-- Zero has no digits at all. -/
theorem isShortest_zero (unsigned : x.negative = false) (zero : x.rank = 0) : IsShortest x 0 where
  nearest := by
    have inside : InInterval 0 0 := inInterval_zero le_rfl (by positivity)
    exact inside.isNearest unsigned zero
  fewest _ n _ _ := ⟨⟨0, 0⟩, Nat.pow_pos (by decide), by simp [Decimal.value]⟩
  closest q' _ _ := by
    rw [magnitude_eq_zero_iff.mpr zero, sub_zero, abs_zero]
    exact abs_nonneg _

/-- What the search finds is the shortest of all numbers that are rounded to its magnitude. -/
theorem isShortest_shortest (unsigned : x.negative = false) (finite : x.rank < infinityRank) :
    IsShortest x (shortest x.rank).value := by
  by_cases zero : x.rank = 0
  · rw [zero, value_shortest_zero]
    exact isShortest_zero unsigned zero
  · have pos := Nat.pos_of_ne_zero zero
    exact (isCoarsest_shortest pos).isShortest pos unsigned finite

/-- The text of a finite double is a decimal with the fewest digits. -/
theorem exists_isShortest_text (unsigned : x.negative = false) (finite : x.rank < infinityRank) :
    ∃ d, Decimal.ofText? x.text.toList = some d ∧ IsShortest x d.value := by
  obtain ⟨d, reads, value⟩ := exists_ofText?_magnitudeText x.rank
  rw [text_of_finite unsigned finite]
  exact ⟨d, reads, value ▸ isShortest_shortest unsigned finite⟩

-- Two decimals with the fewest digits can be equally near; then the larger one is taken.
example : (ofRatio 1 (2 ^ 25)).text = "2.9802322387695313E-8" := by decide +kernel

/-- **The text of a double is read back.** Rounding gives the nearest double to a number, and the
text of every double that is a number, read and rounded, gives that double with its sign; so no two
of them have the same text. The text of a finite double is that of its magnitude behind its sign,
and that is a decimal with the fewest digits, of those nearest to the double. -/
theorem text_reads_back :
    (∀ q, 0 ≤ q → IsNearest q (nearest q)) ∧
    (∀ x : Double, x.isNaN = false → ofText? x.text = some x) ∧
    (∀ x y : Double, x.isNaN = false → y.isNaN = false → (x.text = y.text ↔ x = y)) ∧
    ∀ x : Double, x.negative = false → x.rank < infinityRank →
      x.negate.text.toList = '-' :: x.text.toList ∧
      ∃ d, Decimal.ofText? x.text.toList = some d ∧ IsShortest x d.value := by
  refine ⟨fun q nonneg => isNearest_nearest nonneg, fun x number => ofText?_text number,
    fun x y number number' => text_inj number number', fun x unsigned finite => ⟨?_, ?_⟩⟩
  · have number : x.isNaN = false := by simp [isNaN, finite.le]
    exact toList_text_negate number unsigned
  · exact exists_isShortest_text unsigned finite

/-- The least positive magnitude has one digit, and of the five digits that would do the nearest. -/
theorem text_reads_back_least :
    ofText? (negate (.ofBits 1)).text = some (negate (.ofBits 1)) ∧
      (Double.ofBits 1).text = "5.0E-324" ∧
      IsShortest (.ofBits 1) (Decimal.mk 50 (-325)).value := by
  obtain ⟨-, readsBack, -, digits⟩ := text_reads_back
  obtain ⟨-, d, reads, shortest⟩ := digits (.ofBits 1) (by decide) (by decide)
  have text : (Double.ofBits 1).text = "5.0E-324" := by decide +kernel
  have written : Decimal.ofText? "5.0E-324".toList = some ⟨50, -325⟩ := by decide +kernel
  rw [text, written] at reads
  obtain rfl := Option.some.inj reads
  exact ⟨readsBack _ (by decide), text, shortest⟩

end Text

end Double

end Formula
