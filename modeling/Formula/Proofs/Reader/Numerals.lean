import Formula.Proofs.Double.Interval
import Formula.Proofs.Double.ReadBack
import Formula.Proofs.Reader.Cursor

/-!
# Numerals

Where a digit is next there is a numeral, of any length, and it is read as the double nearest to
the rational number that it writes. What is written and which double is nearest are said without
the scanner and without rounding.

## Main definitions

* `Numeral` — the texts of numbers, each with the rational number that it writes
* `NumeralAhead` — is a numeral next for a reader?

## Main results

* `isNearest_numeralValue` — the value of a numeral is nearest to what it writes
* `numerals_read_nearest` — what a reader gives in front of a numeral
-/

namespace Formula

/-- The text of a number, and the number that it writes: digits, and maybe a point behind them. The
digits behind the point, if there are any, count parts of one. -/
inductive Numeral : List Char → ℚ → Prop
  | whole {digits : List Char} : digits ≠ [] → (∀ c ∈ digits, c.isDigit = true) →
      Numeral digits (Nat.ofDigitChars 10 digits 0)
  | pointed {whole fraction : List Char} : whole ≠ [] → (∀ c ∈ whole, c.isDigit = true) →
      (∀ c ∈ fraction, c.isDigit = true) →
      Numeral (whole ++ '.' :: fraction)
        (Nat.ofDigitChars 10 whole 0 + Nat.ofDigitChars 10 fraction 0 / 10 ^ fraction.length)

/-- Is `l` the numeral behind the blanks in front of the reader, `rest` what follows it, and `q` the
number that it writes? The numeral is whole: what follows does not prolong it. -/
structure NumeralAhead (r : Reader) (l rest : List Char) (q : ℚ) : Prop where
  numeral : Numeral l q
  text : ∃ blanks, (∀ c ∈ blanks, isBlank c = true) ∧ r.unread = blanks ++ (l ++ rest)
  whole : ∀ c ∈ rest.head?, prolongs l c = false

section Values

variable {l whole fraction : List Char} {q q' : ℚ} {t : Token}

theorem Numeral.nonneg (numeral : Numeral l q) : 0 ≤ q := by
  cases numeral <;> positivity

/-- A text writes one number at most. -/
theorem Numeral.unique (first : Numeral l q) (second : Numeral l q') : q = q' := by
  have noPoint {digits whole fraction : List Char} (all : ∀ c ∈ digits, c.isDigit = true) :
      digits ≠ whole ++ '.' :: fraction := by
    rintro rfl
    exact absurd (all '.' (by simp)) (by decide)
  generalize text : l = l' at second
  cases first with
  | whole _ digits =>
    cases second with
    | whole _ _ => rw [text]
    | pointed _ _ _ => exact absurd text (noPoint digits)
  | pointed _ wholeDigits _ =>
    cases second with
    | whole _ digits => exact absurd text.symm (noPoint digits)
    | pointed _ wholeDigits' _ =>
      obtain ⟨rfl, same⟩ := append_inj_of_head wholeDigits (by simp) wholeDigits' (by simp) text
      obtain ⟨-, rfl⟩ := List.cons.inj same
      rfl

/-- The value of a numeral is nearest to what it writes. -/
theorem isNearest_numeralValue (whole fraction : List Char) :
    Double.IsNearest
      (Nat.ofDigitChars 10 whole 0 + Nat.ofDigitChars 10 fraction 0 / 10 ^ fraction.length)
      (numeralValue whole fraction) := by
  have digits : Nat.ofDigitChars 10 (whole ++ fraction) 0 =
      10 ^ fraction.length * Nat.ofDigitChars 10 whole 0 + Nat.ofDigitChars 10 fraction 0 := by
    rw [Nat.ofDigitChars_append, Nat.ofDigitChars_eq_ofDigitChars_zero]
  have unitPos : 0 < 10 ^ fraction.length := Nat.pow_pos (by decide)
  have unit : (10 : ℚ) ^ fraction.length ≠ 0 := pow_ne_zero _ (by norm_num)
  have nearest := Double.isNearest_ofRatio (Nat.ofDigitChars 10 (whole ++ fraction) 0) unitPos
  rw [numeralValue]
  convert nearest using 1
  rw [digits]
  push_cast
  rw [add_div, mul_div_cancel_left₀ _ unit]

/-- The lexemes of numbers are the numerals, and their tokens the doubles that are nearest. -/
theorem Numeral.exists_lexeme (numeral : Numeral l q) :
    ∃ v, Lexeme l (.number v) ∧ Double.IsNearest q v := by
  cases numeral with
  | whole some digits =>
    refine ⟨_, .integer some digits, ?_⟩
    simpa using isNearest_numeralValue l []
  | @pointed whole fraction some wholeDigits digits =>
    exact ⟨_, .decimal some wholeDigits digits, isNearest_numeralValue whole fraction⟩

/-- A number that is scanned has been written by a numeral. -/
theorem Lexeme.exists_numeral {v : Double} (lexeme : Lexeme l (.number v)) : ∃ q, Numeral l q := by
  cases lexeme with
  | integer some digits => exact ⟨_, .whole some digits⟩
  | decimal some wholeDigits digits => exact ⟨_, .pointed some wholeDigits digits⟩

end Values

/-! ### Readers in front of numerals -/

section Readers

variable {r r' : Reader} {d : Char} {cs l l' rest rest' : List Char} {q q' : ℚ} {v v' : Double}

/-- Where a digit is next there is a numeral. -/
theorem exists_numeralAhead (ahead : r.unread.dropWhile isBlank = d :: cs)
    (digit : d.isDigit = true) : ∃ l rest q, NumeralAhead r l rest q := by
  obtain ⟨l, text, lexeme, whole⟩ := @exists_lexeme_of_scanNumeral d cs digit
  obtain ⟨q, numeral⟩ := lexeme.exists_numeral
  refine ⟨l, _, q, numeral, ⟨r.unread.takeWhile isBlank, fun _ => List.mem_takeWhile_imp, ?_⟩,
    whole⟩
  rw [← text, ← ahead, List.takeWhile_append_dropWhile]

/-- A reader gives the double that is nearest to what is written, and goes on behind it. -/
theorem NumeralAhead.exists_next (ahead : NumeralAhead r l rest q) :
    ∃ v, r.next.1 = .number v ∧ r.next.2.unread = rest ∧ Double.IsNearest q v := by
  obtain ⟨numeral, ⟨blanks, blank, text⟩, whole⟩ := ahead
  obtain ⟨v, lexeme, nearest⟩ := numeral.exists_lexeme
  have scanned := scan_append blank lexeme whole
  rw [← text] at scanned
  exact ⟨v, congrArg Prod.fst scanned, congrArg Prod.snd scanned, nearest⟩

theorem NumeralAhead.isNearest (ahead : NumeralAhead r l rest q) (next : r.next.1 = .number v) :
    Double.IsNearest q v := by
  obtain ⟨w, next', -, nearest⟩ := ahead.exists_next
  obtain rfl := Token.number.inj (next.symm.trans next')
  exact nearest

/-- There is one numeral at most in front of a reader. -/
theorem NumeralAhead.unique (first : NumeralAhead r l rest q)
    (second : NumeralAhead r l' rest' q') : l' = l ∧ rest' = rest ∧ q' = q := by
  obtain ⟨numeral, ⟨blanks, blank, text⟩, whole⟩ := first
  obtain ⟨numeral', ⟨blanks', blank', text'⟩, whole'⟩ := second
  obtain ⟨v, lexeme, -⟩ := numeral.exists_lexeme
  obtain ⟨v', lexeme', -⟩ := numeral'.exists_lexeme
  have run : BlankRun blanks (l ++ rest) := ⟨blank, lexeme.isBlank_head⟩
  have run' : BlankRun blanks' (l' ++ rest') := ⟨blank', lexeme'.isBlank_head⟩
  obtain ⟨-, behind⟩ := run.unique run' (text.symm.trans text')
  obtain ⟨rfl, -, rfl⟩ := lexeme.unique_front whole lexeme' whole' behind
  exact ⟨rfl, rfl, numeral'.unique numeral⟩

/-- **Numbers are read exactly.** Behind blanks, a digit begins one numeral, however long it is and
whether or not it has a point, and digits behind that. What is read is the number that is nearest
to the written one, and nothing fails on the way. It has no sign; from half way between the largest
finite magnitude and `2 ^ 1024` on it is infinity, and up to half the least positive one it is zero.
What is read of a numeral that writes more is not smaller. -/
theorem numerals_read_nearest (ahead : r.unread.dropWhile isBlank = d :: cs)
    (digit : d.isDigit = true) :
    ∃ l rest q v, NumeralAhead r l rest q ∧
      (∀ l' rest' q', NumeralAhead r l' rest' q' → l' = l ∧ rest' = rest ∧ q' = q) ∧
      r.next.1 = .number v ∧ r.next.2.unread = rest ∧
      (utf8Length r.text < 2 ^ 32 → r.cursor.next? = some (.number v, r.next.2.cursor)) ∧
      Double.IsNearest q v ∧ (∀ w, Double.IsNearest q w → w = v) ∧
      v.negative = false ∧ v.isNaN = false ∧
      (2 ^ 1024 - 2 ^ 970 ≤ q → v = .infinity) ∧ (q ≤ 1 / 2 ^ 1075 → v = .ofBits 0) ∧
      ∀ r' l' rest' q' v', NumeralAhead r' l' rest' q' → r'.next.1 = .number v' → q ≤ q' →
        v.magnitude ≤ v'.magnitude := by
  obtain ⟨l, rest, q, whole⟩ := exists_numeralAhead ahead digit
  obtain ⟨v, next, behind, nearest⟩ := whole.exists_next
  refine ⟨l, rest, q, v, whole, fun _ _ _ => whole.unique, next, behind, fun short => ?_, nearest,
    fun w nearest' => nearest'.unique nearest, nearest.unsigned, nearest.number, fun large => ?_,
    fun small => ?_, fun r' l' rest' q' v' whole' next' le => ?_⟩
  · rw [Reader.next?_cursor short, next]
  · exact Double.eq_infinity nearest.unsigned (nearest.infinite_iff.mpr large)
  · exact Double.ext_rank nearest.unsigned (nearest.rank_eq_zero whole.numeral.nonneg small)
  · exact nearest.magnitude_le_magnitude le (whole'.isNearest next')

/-- `2 ^ 53 + 1` is half way between two doubles, and a point without digits behind it is part of
the numeral. -/
theorem numerals_read_nearest_tie :
    NumeralAhead (.ofString " 9007199254740993.x") "9007199254740993.".toList ['x']
        9007199254740993 ∧
      (Reader.ofString " 9007199254740993.x").next.1 = .number (.ofBits 0x4340000000000000) ∧
      Double.IsNearest 9007199254740993 (.ofBits 0x4340000000000000) := by
  obtain ⟨l, rest, q, v, _, unique, next, _, _, nearest, _⟩ :=
    @numerals_read_nearest (.ofString " 9007199254740993.x") '9' "007199254740993.x".toList
      (by decide +kernel) (by decide)
  have here : NumeralAhead (.ofString " 9007199254740993.x") "9007199254740993.".toList ['x']
      9007199254740993 := by
    refine ⟨?_, ⟨[' '], by simp [isBlank], by decide +kernel⟩, by simp; decide +kernel⟩
    simpa [Nat.ofDigitChars] using
      @Numeral.pointed "9007199254740993".toList [] (by decide) (by simp) (by simp)
  have read : (Reader.ofString " 9007199254740993.x").next.1 =
      .number (.ofBits 0x4340000000000000) := by decide +kernel
  obtain ⟨rfl, rfl, rfl⟩ := unique _ _ _ here
  obtain rfl := Token.number.inj (next.symm.trans read)
  exact ⟨here, next, nearest⟩

end Readers

end Formula
