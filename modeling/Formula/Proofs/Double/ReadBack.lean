import Mathlib.Algebra.Order.Field.Rat
import Mathlib.Tactic.FieldSimp
import Mathlib.Tactic.LinearCombination
import Mathlib.Tactic.NormNum
import Mathlib.Tactic.Positivity
import Formula.Proofs.Double.Interval
import Formula.Proofs.Double.Text

/-!
# Reading the text of a double back

The text of a double is an exact rational number, whichever of the two layouts it has. The double
nearest to that rational is the one that was written, so no two doubles have the same text.

## Main definitions

* `Decimal.value` — the rational number that a decimal is
* `Decimal.ofText?` — the decimal that a text writes
* `Double.nearest` — the double nearest to a rational number that is not below zero
* `Double.ofText?` — the double that a text writes

## Main results

* `Double.ofText?_text` — the text of a double is read back
* `Double.text_inj` — doubles with the same text are the same
-/

namespace Formula

namespace Decimal

/-- The rational number that a decimal is. -/
def value (d : Decimal) : ℚ := d.digits * 10 ^ d.exponent

theorem value_nonneg (d : Decimal) : 0 ≤ d.value :=
  mul_nonneg (Nat.cast_nonneg _) (zpow_nonneg (by norm_num) _)

/-- The whole number that digits write, if there are any and nothing else. -/
def whole? (cs : List Char) : Option Nat :=
  if cs ≠ [] ∧ cs.all Char.isDigit then some (Nat.ofDigitChars 10 cs 0) else none

/-- The whole number that digits write behind a minus sign, or without one. -/
def signed? : List Char → Option Int
  | '-' :: cs => (whole? cs).map fun n : Nat => -(n : Int)
  | cs => (whole? cs).map fun n : Nat => (n : Int)

/-- The power of ten that a text writes: none at all, or an `E` and a whole number. -/
def power? : List Char → Option Int
  | [] => some 0
  | 'E' :: cs => signed? cs
  | _ => none

/-- The decimal that a text writes: digits, a point, digits, and a power of ten. -/
def ofText? (cs : List Char) : Option Decimal :=
  let whole := cs.takeWhile Char.isDigit
  match cs.dropWhile Char.isDigit with
  | '.' :: rest =>
    let fraction := rest.takeWhile Char.isDigit
    if whole = [] ∨ fraction = [] then none
    else (power? (rest.dropWhile Char.isDigit)).map fun power =>
      ⟨Nat.ofDigitChars 10 (whole ++ fraction) 0, power - fraction.length⟩
  | _ => none

section Reading

variable {cs whole fraction tail : List Char} {power : Int}

theorem whole?_of_digits (someDigit : cs ≠ []) (digits : ∀ c ∈ cs, c.isDigit = true) :
    whole? cs = some (Nat.ofDigitChars 10 cs 0) :=
  if_pos ⟨someDigit, List.all_eq_true.mpr digits⟩

/-- A whole number is read back. -/
theorem signed?_signedText (n : Int) : signed? (signedText n).toList = some n := by
  have digits := isDigit_of_mem_toDigits n.natAbs
  have read : whole? (Nat.toDigits 10 n.natAbs) = some n.natAbs := by
    rw [whole?_of_digits Nat.toDigits_ne_nil digits, Nat.ofDigitChars_ten_toDigits]
  rcases Int.lt_or_le n 0 with negative | nonneg
  · rw [toList_signedText_of_neg negative, signed?, read, Option.map_some, Option.some.injEq]
    omega
  · have magnitude : ((n.natAbs : Nat) : Int) = n := by omega
    rw [toList_signedText_of_nonneg nonneg, signed?, read, Option.map_some, magnitude]
    -- Digits do not begin with a minus sign.
    rintro ds minus
    exact absurd (digits '-' (minus ▸ List.mem_cons_self)) (by decide)

/-- Digits around a point are read as far as the power of ten. -/
theorem ofText?_append (someWhole : whole ≠ []) (wholeDigits : ∀ c ∈ whole, c.isDigit = true)
    (someFraction : fraction ≠ []) (digits : ∀ c ∈ fraction, c.isDigit = true)
    (stop : ∀ c ∈ tail.head?, c.isDigit = false) (read : power? tail = some power) :
    ofText? (whole ++ '.' :: (fraction ++ tail)) =
      some ⟨Nat.ofDigitChars 10 (whole ++ fraction) 0, power - fraction.length⟩ := by
  have point : ∀ c ∈ ('.' :: (fraction ++ tail)).head?, c.isDigit = false := by
    rintro _ ⟨⟩
    rfl
  unfold ofText?
  rw [takeWhile_append_of_head wholeDigits point, dropWhile_append_of_head wholeDigits point]
  simp only [takeWhile_append_of_head digits stop, dropWhile_append_of_head digits stop, someWhole,
    someFraction, or_self, if_false, read, Option.map_some]

end Reading

/-! ### The two layouts -/

section Layouts

variable {tail : List Char} {power : Int}

/-- Digits with a point have the value that they stand for. -/
theorem exists_ofText?_pointed (n places : Nat) (stop : ∀ c ∈ tail.head?, c.isDigit = false)
    (read : power? tail = some power) :
    ∃ d, ofText? ((pointed n places).toList ++ tail) = some d ∧
      d.value = n / 10 ^ places * 10 ^ power := by
  obtain ⟨whole, fraction, text, someWhole, wholeDigits, someFraction, digits, value⟩ :=
    exists_toList_pointed n places
  have reads := ofText?_append someWhole wholeDigits someFraction digits stop read
  rw [text, List.append_assoc, List.cons_append]
  refine ⟨_, reads, ?_⟩
  have value' : (Nat.ofDigitChars 10 (whole ++ fraction) 0 : ℚ) * 10 ^ places =
      n * 10 ^ fraction.length := by exact_mod_cast value
  rw [Decimal.value, zpow_sub₀ (by norm_num), zpow_natCast]
  field_simp
  linear_combination value'

/-- Without a power of ten, a decimal is read back. -/
theorem exists_ofText?_positional (d : Decimal) :
    ∃ d', ofText? d.positional.toList = some d' ∧ d'.value = d.value := by
  obtain ⟨d', reads, value⟩ := @exists_ofText?_pointed [] 0
    (d.digits * 10 ^ d.exponent.toNat) (-d.exponent).toNat (by simp) rfl
  rw [List.append_nil] at reads
  refine ⟨d', reads, ?_⟩
  have split : d.exponent = (d.exponent.toNat : Int) - ((-d.exponent).toNat : Int) := by omega
  rw [value, Decimal.value, split, zpow_sub₀ (by norm_num), zpow_natCast, zpow_natCast, ← split]
  push_cast
  ring

/-- With a power of ten, a decimal is read back as well. -/
theorem exists_ofText?_scientific (d : Decimal) :
    ∃ d', ofText? d.scientific.toList = some d' ∧ d'.value = d.value := by
  generalize places : (Nat.toDigits 10 d.digits).length - 1 = n
  have stop : ∀ c ∈ ('E' :: (signedText (d.exponent + n)).toList).head?, c.isDigit = false := by
    rintro _ ⟨⟩
    rfl
  obtain ⟨d', reads, value⟩ :=
    exists_ofText?_pointed d.digits n stop (signed?_signedText (d.exponent + n))
  have text : d.scientific.toList =
      (pointed d.digits n).toList ++ 'E' :: (signedText (d.exponent + n)).toList := by
    simp [scientific, places]
  rw [text]
  refine ⟨d', reads, ?_⟩
  rw [value, Decimal.value, zpow_add₀ (by norm_num), zpow_natCast]
  field_simp

end Layouts

end Decimal

/-! ### The characters of numbers -/

/-- Can the character stand in a number with a point and a power of ten? -/
def isNumberChar (c : Char) : Bool := c.isDigit || c == '.' || c == 'E' || c == '-'

section Characters

theorem isNumberChar_of_isDigit {c : Char} (digit : c.isDigit = true) : isNumberChar c = true := by
  simp [isNumberChar, digit]

/-- A number with a point begins with a digit, whatever follows it. -/
theorem exists_pointed_append (n places : Nat) {tail : List Char}
    (all : ∀ c ∈ tail, isNumberChar c = true) :
    ∃ d cs, (pointed n places).toList ++ tail = d :: cs ∧ d.isDigit = true ∧
      ∀ c ∈ d :: cs, isNumberChar c = true := by
  obtain ⟨whole, fraction, text, someWhole, wholeDigits, _, digits, _⟩ :=
    exists_toList_pointed n places
  obtain ⟨d, ds, rfl⟩ := List.exists_cons_of_ne_nil someWhole
  refine ⟨d, ds ++ '.' :: (fraction ++ tail), by simp [text], wholeDigits d List.mem_cons_self, ?_⟩
  rw [← List.cons_append]
  simp only [List.forall_mem_append, List.forall_mem_cons (a := '.')]
  exact ⟨fun c member => isNumberChar_of_isDigit (wholeDigits c member), rfl,
    fun c member => isNumberChar_of_isDigit (digits c member), all⟩

theorem isNumberChar_of_mem_signedText (n : Int) :
    ∀ c ∈ (signedText n).toList, isNumberChar c = true := by
  have digits : ∀ c ∈ Nat.toDigits 10 n.natAbs, isNumberChar c = true := fun c member =>
    isNumberChar_of_isDigit (isDigit_of_mem_toDigits _ c member)
  rcases Int.lt_or_le n 0 with negative | nonneg
  · rw [toList_signedText_of_neg negative, List.forall_mem_cons]
    exact ⟨rfl, digits⟩
  · rw [toList_signedText_of_nonneg nonneg]
    exact digits

end Characters

namespace Double

/-- The double nearest to a rational number that is not below zero. -/
def nearest (q : ℚ) : Double := .ofRatio q.num.toNat q.den

/-- The double with the given magnitude that is below zero. -/
def negate (x : Double) : Double := { x with negative := true }

@[simp] theorem negative_negate (x : Double) : x.negate.negative = true := rfl

@[simp] theorem rank_negate (x : Double) : x.negate.rank = x.rank := rfl

/-- The positive infinity. -/
def infinity : Double := ⟨false, infinityRank, by decide⟩

/-- The double that a text without a sign writes. -/
def magnitude? (cs : List Char) : Option Double :=
  if cs = "Infinity".toList then some infinity
  else (Decimal.ofText? cs).map fun d => nearest d.value

/-- The double that a text writes. -/
def ofText? (text : String) : Option Double :=
  match text.toList with
  | '-' :: cs => (magnitude? cs).map negate
  | cs => magnitude? cs

section ReadBack

variable {x y : Double} {q : ℚ} {d : Decimal} {rank place : Nat}

theorem eq_infinity (unsigned : x.negative = false) (infinite : x.rank = infinityRank) :
    x = infinity :=
  ext_rank unsigned infinite

/-- Rounding gives the nearest double. -/
theorem isNearest_nearest (nonneg : 0 ≤ q) : IsNearest q (nearest q) := by
  have nearest := isNearest_ofRatio q.num.toNat q.den_pos
  rwa [num_toNat_div_den nonneg] at nearest

/-- A decimal of the search as a fraction of the finest power of ten. -/
theorem value_eq_div (place_eq : d.exponent = (place : Int) - 1074) :
    d.value = ((d.digits * 10 ^ place : Nat) : ℚ) / 10 ^ 1074 := by
  rw [Decimal.value, place_eq, zpow_sub₀ (by norm_num), Nat.cast_mul, Nat.cast_pow, mul_div_assoc]
  rfl

/-- The test of the search is that of the interval. -/
theorem inInterval_value_iff (place_eq : d.exponent = (place : Int) - 1074) :
    InInterval rank d.value ↔ roundsTo rank (d.digits * 10 ^ place) = true := by
  have cast (limit : Nat) : (10 : ℚ) ^ limit = ((10 ^ limit : Nat) : ℚ) := by
    rw [Nat.cast_pow, Nat.cast_ofNat]
  have pos (limit : Nat) : 0 < 10 ^ limit := Nat.pow_pos (by decide)
  have expand (num limit : Nat) :
      Covers rank (num * 2 ^ limit) (10 ^ limit) ↔ Covers rank num (5 ^ limit) := by
    rw [show 10 = 5 * 2 from rfl, Nat.mul_pow, covers_mul_iff (Nat.two_pow_pos limit)]
  rw [value_eq_div place_eq, cast 1074, inInterval_div_iff (pos 1074), expand _ 1074,
    roundsTo_eq_true_iff]

/-- The shortest decimal is rounded to the magnitude that it was found for. -/
theorem nearest_shortest (unsigned : x.negative = false) (finite : x.rank < infinityRank) :
    nearest (shortest x.rank).value = x := by
  obtain ⟨power, place, covers⟩ := covers_shortest x.rank
  have inside : InInterval x.rank (shortest x.rank).value :=
    (inInterval_value_iff place).mpr (roundsTo_eq_true_iff.mpr covers)
  have here := inside.isNearest unsigned (Nat.min_eq_right finite.le).symm
  exact (isNearest_nearest (shortest x.rank).value_nonneg).unique here

/-- The search would find zero, too, although it is written without one. -/
theorem value_shortest_zero : (shortest 0).value = 0 := by
  have none : (shortest 0).digits = 0 := by decide +kernel
  rw [Decimal.value, none, Nat.cast_zero, zero_mul]

/-- The text of a finite magnitude writes the shortest decimal. -/
theorem exists_ofText?_magnitudeText (rank : Nat) :
    ∃ d, Decimal.ofText? (magnitudeText rank).toList = some d ∧
      d.value = (shortest rank).value := by
  rw [magnitudeText]
  split
  · next zero =>
    obtain ⟨d, reads, value⟩ := Decimal.exists_ofText?_positional ⟨0, 0⟩
    refine ⟨d, reads, ?_⟩
    rw [value, zero, value_shortest_zero, Decimal.value, Nat.cast_zero, zero_mul]
  · split
    · exact Decimal.exists_ofText?_positional (shortest rank)
    · exact Decimal.exists_ofText?_scientific (shortest rank)

/-- The text of a finite magnitude is that of a number, and begins with a digit. -/
theorem exists_toList_magnitudeText (rank : Nat) :
    ∃ d cs, (magnitudeText rank).toList = d :: cs ∧ d.isDigit = true ∧
      ∀ c ∈ d :: cs, isNumberChar c = true := by
  have exponent (n : Int) : ∀ c ∈ 'E' :: (signedText n).toList, isNumberChar c = true :=
    List.forall_mem_cons.mpr ⟨rfl, isNumberChar_of_mem_signedText n⟩
  rw [magnitudeText]
  split
  · simpa using @exists_pointed_append 0 0 [] (by simp)
  · split
    · simpa [Decimal.positional] using @exists_pointed_append _ _ [] (by simp)
    · simpa [Decimal.scientific] using exists_pointed_append _ _ (exponent _)

/-- Without a sign, the text of a double is read back, and it does not begin with a sign. -/
theorem magnitude?_text (unsigned : x.negative = false) (number : x.isNaN = false) :
    magnitude? x.text.toList = some x ∧ ∀ cs, x.text.toList ≠ '-' :: cs := by
  rcases lt_or_eq_infinityRank number with finite | infinite
  · obtain ⟨d, reads, value⟩ := exists_ofText?_magnitudeText x.rank
    have rounded : nearest d.value = x := value ▸ nearest_shortest unsigned finite
    obtain ⟨c, cs, text, digit, _⟩ := exists_toList_magnitudeText x.rank
    have apart {c' : Char} (noDigit : c'.isDigit = false) (cs' : List Char) :
        (magnitudeText x.rank).toList ≠ c' :: cs' := by
      intro same
      obtain ⟨rfl, _⟩ := List.cons.inj (text.symm.trans same)
      rw [digit] at noDigit
      cases noDigit
    have notInfinity : (magnitudeText x.rank).toList ≠ "Infinity".toList :=
      apart (show 'I'.isDigit = false by decide) "nfinity".toList
    rw [text_of_finite unsigned finite]
    refine ⟨?_, apart (by decide)⟩
    rw [magnitude?, if_neg notInfinity, reads, Option.map_some, rounded]
  · rw [text_of_infinite unsigned infinite]
    refine ⟨?_, by simp⟩
    rw [magnitude?, if_pos rfl, Option.some.injEq]
    exact (eq_infinity unsigned infinite).symm

/-- The sign of a double stands in front of its magnitude. -/
theorem toList_text_negate (number : x.isNaN = false) (unsigned : x.negative = false) :
    x.negate.text.toList = '-' :: x.text.toList := by
  have number' : x.negate.isNaN = false := number
  rw [text, text, number, number', rank_negate]
  simp [unsigned]

/-- The text of a double is read back. -/
theorem ofText?_text (number : x.isNaN = false) : ofText? x.text = some x := by
  cases sign : x.negative with
  | false =>
    obtain ⟨reads, noSign⟩ := magnitude?_text sign number
    rw [ofText?]
    split
    · next cs minus => exact absurd minus (noSign cs)
    · exact reads
  | true =>
    obtain ⟨negative, rank, lt⟩ := x
    obtain rfl : negative = true := sign
    have reads := (magnitude?_text (x := ⟨false, rank, lt⟩) rfl number).1
    have text := toList_text_negate (x := ⟨false, rank, lt⟩) number rfl
    change ofText? (negate ⟨false, rank, lt⟩).text = some (negate ⟨false, rank, lt⟩)
    simp only [ofText?, text, reads, Option.map_some]

/-- Doubles with the same text are the same. -/
theorem text_inj (number : x.isNaN = false) (number' : y.isNaN = false) :
    x.text = y.text ↔ x = y := by
  refine ⟨fun same => ?_, congrArg text⟩
  have read := ofText?_text number
  rw [same, ofText?_text number'] at read
  exact (Option.some.inj read).symm

end ReadBack

end Double

end Formula
