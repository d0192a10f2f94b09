import Formula.Proofs.Double.Interval
import Formula.Proofs.Lexing.Apart

/-!
# Reading the text of a double

A double that is written without a power of ten is one number token again, with the same double.

## Main results

* `lexeme_pointed` — digits with a point are a number token of their value
* `Double.lexeme_text` — a double in the plain range is read back
-/

namespace Formula

section Digits

theorem isDigit_of_mem_toDigits (n : Nat) : ∀ c ∈ Nat.toDigits 10 n, c.isDigit = true :=
  fun _ => Nat.isDigit_of_mem_toDigits (by decide) (by decide)

theorem toList_signedText_of_neg {n : Int} (negative : n < 0) :
    (signedText n).toList = '-' :: Nat.toDigits 10 n.natAbs := by
  simp [signedText, negative, digitText]

theorem toList_signedText_of_nonneg {n : Int} (nonneg : 0 ≤ n) :
    (signedText n).toList = Nat.toDigits 10 n.natAbs := by
  simp [signedText, Int.not_lt.mpr nonneg, digitText]

/-- What is padded with zeros are digits. -/
theorem isDigit_of_mem_leftpad {n places : Nat} :
    ∀ c ∈ (Nat.toDigits 10 n).leftpad places '0', c.isDigit = true := by
  intro c member
  rcases List.mem_append.mp member with padding | digit
  · rw [(List.mem_replicate.mp padding).2]
    rfl
  · exact isDigit_of_mem_toDigits _ c digit

variable {n places : Nat}

/-- Digits with a point are two runs of digits, and together they have the value they stand for. -/
theorem exists_toList_pointed (n places : Nat) :
    ∃ whole fraction : List Char, (pointed n places).toList = whole ++ '.' :: fraction ∧
      whole ≠ [] ∧ (∀ c ∈ whole, c.isDigit = true) ∧
      fraction ≠ [] ∧ (∀ c ∈ fraction, c.isDigit = true) ∧
      Nat.ofDigitChars 10 (whole ++ fraction) 0 * 10 ^ places = n * 10 ^ fraction.length := by
  refine ⟨Nat.toDigits 10 (n / 10 ^ places),
    (Nat.toDigits 10 (n % 10 ^ places)).leftpad places '0', ?_, Nat.toDigits_ne_nil,
    isDigit_of_mem_toDigits _, ?_, isDigit_of_mem_leftpad, ?_⟩
  · simp [pointed, digitText, String.toList_append]
  · exact List.append_ne_nil_of_right_ne_nil _ Nat.toDigits_ne_nil
  · rw [Nat.ofDigitChars_append, Nat.ofDigitChars_ten_toDigits,
      Nat.ofDigitChars_eq_ofDigitChars_zero]
    have fraction : Nat.ofDigitChars 10 ((Nat.toDigits 10 (n % 10 ^ places)).leftpad places '0') 0 =
        n % 10 ^ places := by
      rw [List.leftpad, Nat.ofDigitChars_append, Nat.ofDigitChars_replicate_zero, Nat.mul_zero,
        Nat.ofDigitChars_ten_toDigits]
    -- What is left is that the fraction has as many digits as there are places.
    rw [fraction]
    cases places with
    | zero =>
      -- Without places there is nothing behind the point but the zero that stands there anyway.
      simp [Nat.mod_one, Nat.mul_comm]
    | succ places =>
      have fits : (Nat.toDigits 10 (n % 10 ^ (places + 1))).length ≤ places + 1 :=
        (Nat.length_toDigits_le_iff (by decide) (Nat.succ_pos places)).mpr
          (Nat.mod_lt n (Nat.pow_pos (by decide)))
      rw [List.length_leftpad, Nat.max_eq_left fits, Nat.div_add_mod]

/-- Digits with a point are a number token of their value. -/
theorem lexeme_pointed (n places : Nat) :
    Lexeme (pointed n places).toList (.number (.ofRatio n (10 ^ places))) := by
  obtain ⟨whole, fraction, text, some, wholeDigits, _, digits, value⟩ :=
    exists_toList_pointed n places
  have same : numeralValue whole fraction = .ofRatio n (10 ^ places) :=
    Double.ofRatio_eq_of_mul_eq (Nat.pow_pos (by decide)) (Nat.pow_pos (by decide)) value
  rw [text, ← same]
  exact .decimal some wholeDigits digits

end Digits

namespace Double

section Text

variable {x : Double} {rank : Nat}

/-- Rounding gives the double without a sign that has the rank. -/
theorem eq_ofRatio {num den : Nat} (unsigned : x.negative = false)
    (computed : rankOfRatio num den = x.rank) : .ofRatio num den = x :=
  ext_rank unsigned.symm computed

/-- A value with finitely many decimal places as a ratio of units. -/
theorem units_of_decimal {digits up down power : Nat} (limit : Nat)
    (place : power + down = limit + up) :
    digits * 10 ^ up * 2 ^ limit * 5 ^ limit = digits * 10 ^ power * 10 ^ down := by
  have ten : 2 ^ limit * 5 ^ limit = 10 ^ limit := (Nat.mul_pow 2 5 limit).symm
  calc digits * 10 ^ up * 2 ^ limit * 5 ^ limit
      = digits * (2 ^ limit * 5 ^ limit * 10 ^ up) := by ring
    _ = digits * 10 ^ (limit + up) := by rw [ten, Nat.pow_add]
    _ = digits * 10 ^ power * 10 ^ down := by rw [← place, Nat.pow_add, Nat.mul_assoc]

/-- A decimal in the interval of a rank is read back as that rank, if it is written without a power
of ten. -/
theorem lexeme_positional {d : Decimal} {power : Nat} (unsigned : x.negative = false)
    (finite : x.rank < infinityRank) (place : d.exponent = (power : Int) - 1074)
    (covers : Covers x.rank (d.digits * 10 ^ power) (5 ^ 1074)) :
    Lexeme d.positional.toList (.number x) := by
  have lexeme := lexeme_pointed (d.digits * 10 ^ d.exponent.toNat) (-d.exponent).toNat
  have pos : 0 < 10 ^ (-d.exponent).toNat := Nat.pow_pos (by decide)
  have places : power + (-d.exponent).toNat = 1074 + d.exponent.toNat := by omega
  -- The text has the value of the decimal, whichever power of ten it was found at.
  have coversRatio := covers.of_mul_eq (five_pow_pos 1074) pos (units_of_decimal 1074 places)
  rw [eq_ofRatio unsigned ((rankOfRatio_eq_iff pos finite).mpr coversRatio)] at lexeme
  exact lexeme

/-- A magnitude that is a number is finite or infinite. -/
theorem lt_or_eq_infinityRank (number : x.isNaN = false) :
    x.rank < infinityRank ∨ x.rank = infinityRank := by
  have le : x.rank ≤ infinityRank := by simpa [isNaN] using number
  exact Nat.lt_or_eq_of_le le

theorem isPlain_of_zero (zero : rank = 0) : isPlain rank = true := decide_eq_true (Or.inl zero)

/-- The plain range ends below infinity. -/
theorem lt_infinityRank_of_isPlain (plain : isPlain rank = true) : rank < infinityRank := by
  have infinite : 10 ^ 7 * 2 ^ 1074 ≤ units infinityRank := by
    -- The units are left as a mantissa times a power of two, which is compared factor by factor.
    have power : units infinityRank = (2 ^ 52 + 0) * 2 ^ 2046 := @units_add_mul 0 (by decide) 2046
    have factor : 10 ^ 7 ≤ 2 ^ 52 + 0 := by decide
    have spacing := Nat.pow_le_pow_right Nat.two_pos (show 1074 ≤ 2046 by decide)
    rw [power]
    apply Nat.mul_le_mul factor spacing
  rcases of_decide_eq_true plain with rfl | ⟨_, small⟩
  · decide
  · refine Nat.lt_of_not_le fun beyond => ?_
    have := units_le_units beyond
    omega

/-- The text of a finite double without a sign is that of its magnitude. -/
theorem text_of_finite (unsigned : x.negative = false) (finite : x.rank < infinityRank) :
    x.text = magnitudeText x.rank := by
  have number : x.isNaN = false := by simp [isNaN]; omega
  simp [text, number, unsigned, Nat.ne_of_lt finite]

/-- A double in the plain range is read back. -/
theorem lexeme_text (unsigned : x.negative = false) (plain : isPlain x.rank = true) :
    Lexeme x.text.toList (.number x) := by
  have finite := lt_infinityRank_of_isPlain plain
  rw [text_of_finite unsigned finite, magnitudeText]
  split
  · next zero =>
    -- Zero is written without a search, as `0.0`.
    have lexeme := lexeme_pointed 0 0
    have covers : Covers x.rank (0 * 2 ^ 1074) (10 ^ 0) := by
      simpa only [Nat.zero_mul, zero] using covers_zero (10 ^ 0)
    have pos : 0 < 10 ^ 0 := Nat.pow_pos (by decide)
    rwa [eq_ofRatio unsigned ((rankOfRatio_eq_iff pos finite).mpr covers)] at lexeme
  · obtain ⟨power, place, covers⟩ := covers_shortest x.rank
    exact lexeme_positional unsigned finite place covers

/-- Infinity is a name. -/
theorem text_of_infinite (unsigned : x.negative = false) (infinite : x.rank = infinityRank) :
    x.text = "Infinity" := by
  have number : x.isNaN = false := by simp [isNaN, infinite]
  simp [Double.text, number, unsigned, infinite]

end Text

end Double

end Formula
