import Formula.Proofs.Double.FewestDigits

/-!
# The layout of a double

The text of a double has one form, and its magnitude decides which. In the plain range it is a whole
number without a leading zero, a point and a fraction without a trailing one. Outside it there is
one digit in front of the point, and a power of ten that is never small enough for the other form.
The shortest decimal is on the same side of both ends of the plain range as the magnitude: `1e7` is
a magnitude itself, and the magnitude nearest to `1e-3` is in the range.

## Main definitions

* `IsWhole`, `IsFraction` — digits in front of a point and behind it
* `IsPlainText`, `IsPower`, `IsScientificText` — the two forms
* `Double.abs`, `Double.sign` — a double without its sign, and the sign as it is written
* `Double.Normalized` — a decimal with one digit in front of the point, and a power of ten that
  needs to be written

## Main results

* `Double.IsCoarsest.le_value_iff` — the shortest decimal is on the same side as the magnitude
* `Double.isPlain_ofRatio` — numbers between one and a million are rounded to the plain range
* `Double.exists_normalized` — what is written outside the plain range
* `Double.text_layout` — the form of the text of every double
-/

namespace Formula

/-- Digits in front of a point: a zero is the first of them only if it is the only one. -/
structure IsWhole (cs : List Char) : Prop where
  ne_nil : cs ≠ []
  digits : ∀ c ∈ cs, c.isDigit = true
  zero : cs.head? = some '0' → cs = ['0']

/-- Digits behind a point: a zero is the last of them only if it is the only one. -/
structure IsFraction (cs : List Char) : Prop where
  ne_nil : cs ≠ []
  digits : ∀ c ∈ cs, c.isDigit = true
  zero : cs.getLast? = some '0' → cs = ['0']

/-- A text with a point and without a power of ten. -/
inductive IsPlainText : List Char → Prop
  | mk {whole fraction : List Char} : IsWhole whole → IsFraction fraction →
      IsPlainText (whole ++ '.' :: fraction)

/-- A power of ten that is written: at least the seventh, or at most the fourth below one. -/
inductive IsPower : List Char → Prop
  | large {digits : List Char} : IsWhole digits → 7 ≤ Nat.ofDigitChars 10 digits 0 → IsPower digits
  | small {digits : List Char} : IsWhole digits → 4 ≤ Nat.ofDigitChars 10 digits 0 →
      IsPower ('-' :: digits)

/-- A text with one digit in front of the point, and a power of ten. -/
inductive IsScientificText : List Char → Prop
  | mk {first : Char} {fraction power : List Char} : first.isDigit = true → first ≠ '0' →
      IsFraction fraction → IsPower power →
      IsScientificText (first :: '.' :: (fraction ++ 'E' :: power))

/-! ### Digits -/

section Digits

variable {n places : Nat}

/-- The digits of a number do not begin with a zero, zero itself apart. -/
theorem head?_toDigits_ne_zero (pos : 0 < n) : (Nat.toDigits 10 n).head? ≠ some '0' := by
  induction n using Nat.strong_induction_on with
  | h n ih =>
    by_cases single : n < 10
    · rw [Nat.toDigits_of_lt_base single]
      simpa using pos.ne'
    · rw [Nat.toDigits_of_base_le (by decide) (Nat.le_of_not_lt single),
        List.head?_append_of_ne_nil _ Nat.toDigits_ne_nil]
      exact ih (n / 10) (by omega) (by omega)

theorem isWhole_toDigits (n : Nat) : IsWhole (Nat.toDigits 10 n) where
  ne_nil := Nat.toDigits_ne_nil
  digits := isDigit_of_mem_toDigits n
  zero head := by
    obtain rfl | pos := Nat.eq_zero_or_pos n
    · exact Nat.toDigits_zero 10
    · exact absurd head (head?_toDigits_ne_zero pos)

theorem getLast?_toDigits (n : Nat) :
    (Nat.toDigits 10 n).getLast? = some (Nat.digitChar (n % 10)) := by
  by_cases single : n < 10
  · rw [Nat.toDigits_of_lt_base single, Nat.mod_eq_of_lt single]
    rfl
  · rw [Nat.toDigits_of_base_le (by decide) (Nat.le_of_not_lt single), List.getLast?_concat]

/-- Digits with a point have a fraction without a trailing zero if the last digit is not zero, or if
there are no places at all. -/
theorem exists_isFraction (fine : places = 0 ∨ n % 10 ≠ 0) :
    ∃ fraction, IsFraction fraction ∧
      (pointed n places).toList = Nat.toDigits 10 (n / 10 ^ places) ++ '.' :: fraction := by
  refine ⟨(Nat.toDigits 10 (n % 10 ^ places)).leftpad places '0', ⟨?_, isDigit_of_mem_leftpad, ?_⟩,
    by simp [pointed, digitText, String.toList_append]⟩
  · exact List.append_ne_nil_of_right_ne_nil _ Nat.toDigits_ne_nil
  · cases places with
    | zero => simp [List.leftpad, Nat.mod_one]
    | succ places =>
      -- The last digit of the fraction is that of the number.
      have last : n % 10 ^ (places + 1) % 10 = n % 10 :=
        Nat.mod_mod_of_dvd n (Dvd.intro_left (10 ^ places) rfl)
      rw [List.leftpad, List.getLast?_append_of_ne_nil _ Nat.toDigits_ne_nil, getLast?_toDigits,
        last, Option.some.injEq, Nat.digitChar_eq_zero]
      exact fun zero => absurd zero (fine.resolve_left (Nat.succ_ne_zero places))

end Digits

namespace Double

/-- Is the number zero, or in the range that is written without a power of ten? -/
def InPlainRange (q : ℚ) : Prop := q = 0 ∨ 1 / 1000 ≤ q ∧ q < 10 ^ 7

/-- The double without its sign. -/
def abs (x : Double) : Double := { x with negative := false }

/-- The sign of a double, as it is written. -/
def sign (x : Double) : List Char := if x.negative = true ∧ x.isNaN = false then ['-'] else []

/-- Digits of which one stands in front of the point and none is a zero in vain, and a power of ten
that is too large or too small for the plain range, but not larger or smaller than magnitudes
are. -/
structure Normalized (digits places : Nat) (power : Int) : Prop where
  low : 10 ^ places ≤ digits
  high : digits < 10 ^ (places + 1)
  last : places = 0 ∨ digits % 10 ≠ 0
  bound : power.natAbs ≤ 1074
  written : 7 ≤ power ∨ power ≤ -4

/-! ### The ends of the plain range -/

section Ranges

variable {rank num den : Nat} {d : Decimal} {e : Int} {x : Double}

/-- The last digit of the shortest decimal is not zero. -/
theorem IsCoarsest.last_ne_zero (coarsest : IsCoarsest rank d) : d.digits % 10 ≠ 0 := by
  intro zero
  -- Without the last digit the same number would count in a coarser power of ten.
  have shorter : d.digits = d.digits / 10 * 10 := by omega
  have same : (Decimal.mk (d.digits / 10) (d.exponent + 1)).value = d.value := by
    rw [Decimal.value, Decimal.value, zpow_add_one₀ (by norm_num), shorter]
    push_cast
    simp only [Nat.mul_div_cancel _ (show 0 < 10 by decide)]
    ring
  have coarser := coarsest.coarsest ⟨d.digits / 10, d.exponent + 1⟩ (same ▸ coarsest.inside)
  simp only at coarser
  omega

/-- With a power of ten in the interval, the shortest decimal is not smaller than that. -/
theorem IsCoarsest.le_value_of_inInterval (coarsest : IsCoarsest rank d) (pos : 0 < rank)
    (inside : InInterval rank (10 ^ e)) : 10 ^ e ≤ d.value := by
  have le : e ≤ d.exponent := coarsest.coarsest ⟨1, e⟩ (by rwa [value_one])
  have digits : 10 ^ 0 ≤ d.digits := digits_pos pos coarsest.inside
  calc (10 : ℚ) ^ e ≤ 10 ^ d.exponent := zpow_le_zpow_right₀ (by norm_num) le
    _ = 10 ^ ((0 : Nat) + d.exponent) := by rw [Nat.cast_zero, zero_add]
    _ ≤ d.value := le_value digits

/-- A power of ten that a smaller magnitude is not nearest to has the shortest decimal on the same
side as the magnitude. -/
theorem IsCoarsest.le_value_iff (coarsest : IsCoarsest rank d) (pos : 0 < rank)
    (away : rankMagnitude rank < 10 ^ e → ¬InInterval rank (10 ^ e)) :
    10 ^ e ≤ d.value ↔ 10 ^ e ≤ rankMagnitude rank := by
  have self := inInterval_rankMagnitude rank
  constructor
  · intro le
    by_contra below
    rw [not_le] at below
    exact away below (self.of_between coarsest.inside below.le le)
  · intro le
    by_contra below
    rw [not_le] at below
    have between := coarsest.inside.of_between self below.le le
    exact below.not_ge (coarsest.le_value_of_inInterval pos between)

theorem div_two_pow_of_eq {units n limit : Nat} (whole : units = n * 2 ^ limit) :
    (units / 2 ^ limit : ℚ) = n := by
  rw [whole, Nat.cast_mul, Nat.cast_pow, Nat.cast_ofNat,
    mul_div_cancel_right₀ _ (pow_ne_zero limit two_ne_zero)]

/-- A multiple of the unit that makes a whole number has that for its magnitude. -/
theorem rankMagnitude_of_units {n : Nat} (whole : units rank = n * 2 ^ 1074) :
    rankMagnitude rank = n :=
  div_two_pow_of_eq whole

/-- A ratio that lies in the interval of a rank is rounded to it. -/
theorem InInterval.rankOfRatio_eq (inside : InInterval rank (num / den)) (pos : 0 < den)
    (finite : rank < infinityRank) : rankOfRatio num den = rank :=
  (rankOfRatio_eq_iff pos finite).mpr ((inInterval_div_iff pos).mp inside)

/-- The shortest decimal is in the plain range if the magnitude is. -/
theorem isPlain_iff_value_shortest (pos : 0 < x.rank) (finite : x.rank < infinityRank) :
    isPlain x.rank = true ↔ 10 ^ (-3 : Int) ≤ (shortest x.rank).value ∧
      (shortest x.rank).value < 10 ^ (7 : Int) := by
  have coarsest := isCoarsest_shortest pos
  have thousandth : (10 : ℚ) ^ (-3 : Int) = (1 : Nat) / (1000 : Nat) := by norm_num
  have tenMillion : (10 : ℚ) ^ (7 : Int) = (10000000 : Nat) / (1 : Nat) := by norm_num
  have plain : isPlain x.rank = true ↔
      10 ^ (-3 : Int) ≤ rankMagnitude x.rank ∧ rankMagnitude x.rank < 10 ^ (7 : Int) := by
    have nonzero : x.magnitude ≠ 0 := fun zero => pos.ne' (magnitude_eq_zero_iff.mp zero)
    rw [isPlain_eq_true_iff, or_iff_right nonzero, thousandth, tenMillion, magnitude_eq]
    norm_num
  -- The magnitude nearest to the lower end of the range is in the range.
  have low : 10 ^ (-3 : Int) ≤ (shortest x.rank).value ↔
      10 ^ (-3 : Int) ≤ rankMagnitude x.rank := by
    refine coarsest.le_value_iff pos fun below inside => below.not_ge (plain.mp ?_).1
    rw [thousandth] at inside
    rw [← inside.rankOfRatio_eq (by decide) finite]
    decide +kernel
  -- The upper end is a magnitude itself.
  have high : 10 ^ (7 : Int) ≤ (shortest x.rank).value ↔
      10 ^ (7 : Int) ≤ rankMagnitude x.rank := by
    refine coarsest.le_value_iff pos fun below inside => below.ne ?_
    have whole : units (rankOfRatio 10000000 1) = 10000000 * 2 ^ 1074 := by decide +kernel
    rw [tenMillion] at inside ⊢
    rw [← inside.rankOfRatio_eq (by decide) finite, rankMagnitude_of_units whole, Nat.cast_one,
      div_one]
  rw [plain, low, ← not_le, ← not_le, high]

/-- A number between one and a million is rounded to a double without a power of ten. -/
theorem isPlain_ofRatio (pos : 0 < den) (low : den ≤ num) (high : num ≤ 1000000 * den) :
    isPlain (ofRatio num den).rank = true := by
  have denPos : (0 : ℚ) < den := Nat.cast_pos.mpr pos
  have nearest := isNearest_ofRatio num pos
  have nearestOne := isNearest_ofRatio 1 one_pos
  have nearestMillion := isNearest_ofRatio 1000000 one_pos
  rw [Nat.cast_one, div_one] at nearestOne nearestMillion
  -- One and a million are magnitudes, and a magnitude between them is nearest.
  have one : (ofRatio 1 1).magnitude = (1 : Nat) := rankMagnitude_of_units (by decide +kernel)
  have million : (ofRatio 1000000 1).magnitude = (1000000 : Nat) :=
    rankMagnitude_of_units (by decide +kernel)
  have atLeast : (1 : ℚ) ≤ num / den := (one_le_div denPos).mpr (Nat.cast_le.mpr low)
  have atMost : (num : ℚ) / den ≤ (1000000 : Nat) := by
    rw [div_le_iff₀ denPos]
    exact_mod_cast high
  have above := IsNearest.magnitude_le_magnitude (by exact_mod_cast atLeast) nearestOne nearest
  have below := nearest.magnitude_le_magnitude atMost nearestMillion
  rw [one] at above
  rw [million] at below
  push_cast at above below
  refine isPlain_eq_true_iff.mpr (Or.inr ⟨?_, ?_⟩)
  · linarith
  · linarith

theorem two_pow_le_ten_pow_of_le {m n : Nat} (le : n * 28 / 93 + 1 ≤ m) :
    (2 : ℚ) ^ n ≤ 10 ^ m := by
  have limit := (two_pow_le_ten_pow n).trans (Nat.pow_le_pow_right (by decide) le)
  exact_mod_cast limit

/-- The shortest decimal of a finite magnitude is not beyond the largest ones. -/
theorem IsCoarsest.value_le (coarsest : IsCoarsest rank d) (finite : rank < infinityRank) :
    d.value ≤ 10 ^ (309 : Int) := by
  have high := coarsest.inside.high
  have here := strictMono_rankMagnitude finite
  have next := strictMono_rankMagnitude.monotone (Nat.succ_le_of_lt finite)
  calc d.value ≤ rankMagnitude infinityRank := by linarith
    _ = 2 ^ 1024 := rankMagnitude_infinityRank
    _ ≤ 10 ^ 309 := two_pow_le_ten_pow_of_le (by decide)
    _ = 10 ^ (309 : Int) := rfl

end Ranges

/-! ### The two forms -/

section Forms

variable {digits places : Nat} {power : Int} {d : Decimal} {x : Double}

/-- Without a power of ten, a decimal that does not end with a zero has the plain form. -/
theorem isPlainText_positional (last : d.digits % 10 ≠ 0) : IsPlainText d.positional.toList := by
  have fine : (-d.exponent).toNat = 0 ∨ d.digits * 10 ^ d.exponent.toNat % 10 ≠ 0 := by
    rcases Int.le_total 0 d.exponent with nonneg | nonpos
    · exact Or.inl (by omega)
    · rw [Int.toNat_of_nonpos nonpos, Nat.pow_zero, Nat.mul_one]
      exact Or.inr last
  obtain ⟨fraction, isFraction, text⟩ := exists_isFraction fine
  rw [Decimal.positional, text]
  exact .mk (isWhole_toDigits _) isFraction

/-- The number of a decimal lies between two powers of ten, one digit apart. -/
theorem exists_places (pos : 0 < d.digits) :
    ∃ places, (Nat.toDigits 10 d.digits).length - 1 = places ∧ 10 ^ places ≤ d.digits ∧
      d.digits < 10 ^ (places + 1) := by
  have some : 0 < (Nat.toDigits 10 d.digits).length := Nat.length_toDigits_pos
  obtain ⟨places, length⟩ := Nat.exists_eq_succ_of_ne_zero some.ne'
  refine ⟨places, by omega, ?_, ?_⟩
  · cases places with
    | zero => exact pos
    | succ places =>
      have longer : ¬(Nat.toDigits 10 d.digits).length ≤ places + 1 := by omega
      rw [Nat.length_toDigits_le_iff (by decide) (Nat.succ_pos places)] at longer
      exact Nat.le_of_not_lt longer
  · exact (Nat.length_toDigits_le_iff (by decide) (Nat.succ_pos places)).mp length.le

theorem zpow_lt_zpow_iff {a b : Int} : (10 : ℚ) ^ a < 10 ^ b ↔ a < b :=
  zpow_lt_zpow_iff_right₀ (by norm_num)

/-- The text of a magnitude that is not in the plain range: its digits do not go on in vain, and its
power of ten is not in the plain range either. -/
theorem exists_normalized (finite : x.rank < infinityRank) (notPlain : isPlain x.rank = false) :
    ∃ digits places power, Normalized digits places power ∧
      magnitudeText x.rank = pointed digits places ++ "E" ++ signedText power := by
  have pos : 0 < x.rank := by
    apply Nat.pos_of_ne_zero
    intro zero
    rw [isPlain_of_zero zero] at notPlain
    cases notPlain
  have coarsest := isCoarsest_shortest pos
  have outside := isPlain_iff_value_shortest pos finite
  have atMost := coarsest.value_le finite
  obtain ⟨place, place_eq, -⟩ := covers_shortest x.rank
  have text : magnitudeText x.rank = (shortest x.rank).scientific := by
    simp [magnitudeText, pos.ne', notPlain]
  rw [text]
  generalize shortest x.rank = d at coarsest outside atMost place_eq
  obtain ⟨places, length, low, high⟩ := exists_places (digits_pos pos coarsest.inside)
  have above := le_value low
  have below := value_lt high
  rw [Int.add_comm] at above
  have notLarge : d.exponent + places ≤ 309 :=
    Int.le_of_not_gt fun large => (above.trans atMost).not_gt (zpow_lt_zpow_iff.mpr large)
  refine ⟨d.digits, places, d.exponent + places,
    ⟨low, high, Or.inr coarsest.last_ne_zero, by omega, ?_⟩, ?_⟩
  · by_contra inside
    have plain : 10 ^ (-3 : Int) ≤ d.value ∧ d.value < 10 ^ (7 : Int) := by
      constructor
      · exact (zpow_le_zpow_right₀ (by norm_num) (by omega)).trans above
      · exact below.trans_le (zpow_le_zpow_right₀ (by norm_num) (by push_cast; omega))
    rw [outside.mpr plain] at notPlain
    cases notPlain
  · rw [Decimal.scientific, length]

/-- Digits behind one digit and a power of ten have the form for these. -/
theorem Normalized.isScientificText (normalized : Normalized digits places power) :
    IsScientificText (pointed digits places ++ "E" ++ signedText power).toList := by
  obtain ⟨low, high, last, -, written⟩ := normalized
  obtain ⟨fraction, isFraction, text⟩ := exists_isFraction last
  have pos : 0 < digits / 10 ^ places := Nat.div_pos low (Nat.pow_pos (by decide))
  have single : digits / 10 ^ places < 10 :=
    Nat.div_lt_of_lt_mul (by rwa [← Nat.pow_succ])
  have exponent : IsPower (signedText power).toList := by
    have whole := isWhole_toDigits power.natAbs
    have value : Nat.ofDigitChars 10 (Nat.toDigits 10 power.natAbs) 0 = power.natAbs :=
      Nat.ofDigitChars_ten_toDigits
    rcases written with large | small
    · rw [toList_signedText_of_nonneg (by omega)]
      exact .large whole (by omega)
    · rw [toList_signedText_of_neg (by omega)]
      exact .small whole (by omega)
  have form : (pointed digits places ++ "E" ++ signedText power).toList =
      Nat.digitChar (digits / 10 ^ places) ::
        '.' :: (fraction ++ 'E' :: (signedText power).toList) := by
    simp [text, Nat.toDigits_of_lt_base single]
  rw [form]
  refine .mk ?_ ?_ isFraction exponent
  · simp [single]
  · simpa using pos.ne'

end Forms

/-! ### The text of a double -/

section Text

variable {x : Double}

@[simp] theorem negative_abs (x : Double) : x.abs.negative = false := rfl

@[simp] theorem rank_abs (x : Double) : x.abs.rank = x.rank := rfl

@[simp] theorem isNaN_abs (x : Double) : x.abs.isNaN = x.isNaN := rfl

theorem text_of_isNaN (nan : x.isNaN = true) : x.text = "NaN" := by rw [text, if_pos nan]

example : (ofBits 0xFFF8000000000000).text = "NaN" := by decide +kernel

/-- The text of a double is that of its magnitude behind its sign. -/
theorem toList_text (x : Double) : x.text.toList = x.sign ++ x.abs.text.toList := by
  cases nan : x.isNaN with
  | true =>
    simp [text_of_isNaN, sign, nan]
  | false =>
    cases negative : x.negative with
    | false =>
      have same : x.abs = x := ext_rank negative.symm rfl
      simp [same, sign, negative]
    | true =>
      have same : x.abs.negate = x := ext_rank negative.symm rfl
      have text := toList_text_negate (x := x.abs) nan rfl
      rw [same] at text
      simp [text, sign, negative, nan]

/-- No text of a double without a sign begins with a minus sign. -/
theorem head?_text_abs_ne_minus (x : Double) : x.abs.text.toList.head? ≠ some '-' := by
  cases number : x.isNaN with
  | true => simp [text_of_isNaN, number]
  | false =>
    intro minus
    obtain ⟨cs, text⟩ := List.head?_eq_some_iff.mp minus
    exact (magnitude?_text (x := x.abs) rfl number).2 cs text

/-- In the plain range the text has a point and no power of ten. -/
theorem isPlainText_text_abs (plain : isPlain x.rank = true) : IsPlainText x.abs.text.toList := by
  have finite := lt_infinityRank_of_isPlain plain
  rw [text_of_finite x.negative_abs finite, rank_abs, magnitudeText]
  split
  · obtain ⟨fraction, isFraction, text⟩ := @exists_isFraction 0 0 (Or.inl rfl)
    rw [text]
    exact .mk (isWhole_toDigits _) isFraction
  · next some =>
    exact isPlainText_positional (isCoarsest_shortest (Nat.pos_of_ne_zero some)).last_ne_zero

/-- Outside the plain range it has one digit in front of the point and a power of ten. -/
theorem isScientificText_text_abs (scientific : x.IsScientific) :
    IsScientificText x.abs.text.toList := by
  obtain ⟨finite, notPlain⟩ := isScientific_iff.mp scientific
  obtain ⟨digits, places, power, normalized, text⟩ := exists_normalized finite notPlain
  rw [text_of_finite x.negative_abs finite, rank_abs, text]
  exact normalized.isScientificText

/-- What is written is in the plain range if the magnitude is. -/
theorem exists_ofText?_text_abs (finite : x.rank < infinityRank) :
    ∃ d, Decimal.ofText? x.abs.text.toList = some d ∧
      (InPlainRange d.value ↔ InPlainRange x.magnitude) := by
  obtain ⟨d, reads, value⟩ := exists_ofText?_magnitudeText x.rank
  rw [text_of_finite x.negative_abs finite, rank_abs]
  refine ⟨d, reads, ?_⟩
  have plain : isPlain x.rank = true ↔ InPlainRange x.magnitude := isPlain_eq_true_iff
  rw [value, ← plain]
  obtain zero | pos := Nat.eq_zero_or_pos x.rank
  · rw [zero, value_shortest_zero]
    exact iff_of_true (Or.inl rfl) (isPlain_of_zero rfl)
  · have positive : (shortest x.rank).value ≠ 0 := by
      have digits := digits_pos pos (isCoarsest_shortest pos).inside
      exact mul_ne_zero (Nat.cast_ne_zero.mpr digits.ne') (ten_zpow_pos _).ne'
    rw [InPlainRange, or_iff_right positive, isPlain_iff_value_shortest pos finite]
    norm_num

/-- **The layout of a double.** A minus sign stands in front exactly if the double has one and is a
number, and the rest is the text of its magnitude. In the plain range that is a whole number without
a leading zero, a point and a fraction without a trailing one. Any other finite magnitude has one
digit, not a zero, in front of the point, and a power of ten that is seven at least or minus four at
most. What is written is in the same range as the magnitude. -/
theorem text_layout_of_magnitude (x : Double) :
    x.text.toList = x.sign ++ x.abs.text.toList ∧
    (x.text.toList.head? = some '-' ↔ x.negative = true ∧ x.isNaN = false) ∧
    (InPlainRange x.magnitude → IsPlainText x.abs.text.toList) ∧
    (x.rank < infinityRank → ¬InPlainRange x.magnitude → IsScientificText x.abs.text.toList) ∧
    (x.rank < infinityRank → ∃ d, Decimal.ofText? x.abs.text.toList = some d ∧
      (InPlainRange d.value ↔ InPlainRange x.magnitude)) ∧
    (x.rank = infinityRank → x.abs.text = "Infinity") ∧ (x.isNaN = true → x.text = "NaN") := by
  refine ⟨x.toList_text, ?_, fun inside => isPlainText_text_abs (isPlain_eq_true_iff.mpr inside),
    fun finite outside => ?_, exists_ofText?_text_abs, fun infinite => ?_, fun nan => ?_⟩
  · rw [toList_text, sign]
    split
    · next signed => simp [signed]
    · next unsigned => exact iff_of_false x.head?_text_abs_ne_minus unsigned
  · have notPlain : isPlain x.rank = false :=
      Bool.eq_false_iff.mpr fun plain => outside (isPlain_eq_true_iff.mp plain)
    exact isScientificText_text_abs (isScientific_iff.mpr ⟨finite, notPlain⟩)
  · exact text_of_infinite x.negative_abs infinite
  · exact text_of_isNaN nan

/-- The last magnitude below `1e-3` keeps its power of ten with all its digits, and the last one
below `1e7` has none. -/
theorem text_layout_of_magnitude_ends :
    let small : Double := .ofBits 0xBF50624DD2F1A9FB
    let large : Double := .ofBits 0x416312CFFFFFFFFF
    small.rank < infinityRank ∧ ¬InPlainRange small.magnitude ∧
    small.text.toList = '-' :: small.abs.text.toList ∧
    small.abs.text = "9.999999999999998E-4" ∧ IsScientificText "9.999999999999998E-4".toList ∧
    InPlainRange large.magnitude ∧ large.abs.text = "9999999.999999998" ∧
    IsPlainText "9999999.999999998".toList ∧
    (infinity.negate.rank = infinityRank ∧ infinity.negate.abs.text = "Infinity") ∧
    (Double.ofBits 0xFFF8000000000000).isNaN = true ∧
    (Double.ofBits 0xFFF8000000000000).text = "NaN" := by
  intro small large
  have outside : ¬InPlainRange small.magnitude := by
    intro plain
    have notPlain : isPlain small.rank = false := by decide +kernel
    rw [isPlain_eq_true_iff.mpr plain] at notPlain
    cases notPlain
  have inside : InPlainRange large.magnitude := isPlain_eq_true_iff.mp (by decide +kernel)
  have finite : small.rank < infinityRank := by decide
  have smallText : small.abs.text = "9.999999999999998E-4" := by decide +kernel
  have largeText : large.abs.text = "9999999.999999998" := by decide +kernel
  obtain ⟨behind, _, _, scientific, _⟩ := text_layout_of_magnitude small
  obtain ⟨_, _, plain, _⟩ := text_layout_of_magnitude large
  obtain ⟨_, _, _, _, _, infinite, _⟩ := text_layout_of_magnitude infinity.negate
  obtain ⟨_, _, _, _, _, _, nan⟩ := text_layout_of_magnitude (.ofBits 0xFFF8000000000000)
  refine ⟨finite, outside, behind, smallText, smallText ▸ scientific finite outside, inside,
    largeText, largeText ▸ plain inside, ⟨rfl, infinite rfl⟩, by decide, nan (by decide)⟩

end Text

end Double

end Formula
