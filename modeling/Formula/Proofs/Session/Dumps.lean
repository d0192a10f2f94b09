import Formula.Proofs.Lexing.Separators
import Formula.Proofs.Rendering.Spelling
import Formula.Session.Basic

/-!
# Dumps of tokens

A session that prints tokens prints them with a blank between each two, and that is a line again. A
token is read from its own text, with two exceptions: an infinite number is read as a name, and a
number with a power of ten as another number, a name, and possibly a minus sign and one more number.
The numbers that come to light like this are between one and a million, so they have no power of ten
themselves. After that every token is read from its own text, and a line of such tokens is printed
as it is, but for its end: a stop is printed as something that is not read.

## Main definitions

* `Token.IsStable` — is a token read from its own text?
* `Token.relexed` — what is read from the text of a token

## Main results

* `flatMap_relexed` — stable tokens are read from their texts
* `Double.Normalized.exists_apart` — the pieces of a number with a power of ten
* `Token.tokens_text` — the text of a token is read to its end, and its tokens are stable
* `Session.tokens_answer` — the tokens of a dump are read from the texts of the tokens
* `Session.dump_of_tokens` — what dumps keep, and when they do not change any more
-/

namespace Formula

/-- Is nothing but the token itself read from its text? -/
def Token.IsStable (t : Token) : Prop := tokens t.text = [t, .endOfText]

/-- What is read from the text of a token. -/
def Token.relexed (t : Token) : List Token := (tokens t.text).dropLast

/-! ### Stable tokens -/

section Stable

variable {l : List Char} {name : String} {num den : Nat} {ts : List Token}

theorem Token.isStable_symbol (s : Symbol) : (symbol s).IsStable := by
  have apart : LexesApart (symbol s).text.toList [symbol s] := by
    simpa [text] using (Lexeme.symbol s).apart
  exact apart.tokens_eq

/-- A name is read from its text. -/
theorem Lexeme.isStable_name (lexeme : Lexeme l (.name name)) : (Token.name name).IsStable := by
  have apart : LexesApart (Token.name name).text.toList [.name name] := by
    generalize word : Token.name name = t at lexeme
    cases lexeme with
    | integer _ _ | decimal _ _ _ | symbol _ => cases word
    | name letter nameChars =>
      obtain rfl := Token.name.inj word
      simpa [Token.text] using (Lexeme.name letter nameChars).apart
  exact apart.tokens_eq

/-- A number between one and a million is read from its text. -/
theorem Token.isStable_ofRatio (pos : 0 < den) (low : den ≤ num) (high : num ≤ 1000000 * den) :
    (number (.ofRatio num den)).IsStable :=
  (Double.lexeme_text rfl (Double.isPlain_ofRatio pos low high)).apart.tokens_eq

/-- What is read from the texts of stable tokens are these tokens. -/
theorem flatMap_relexed (stable : ∀ t ∈ ts, t.IsStable) : ts.flatMap Token.relexed = ts := by
  have single : ∀ t ∈ ts, t.relexed = [t] := by
    intro t member
    rw [Token.relexed, stable t member]
    rfl
  rw [List.flatMap_congr single, List.flatMap_singleton']

end Stable

/-! ### Powers of ten -/

section Powers

variable {digits places : Nat} {power : Int}

/-- A power of ten is a name, or a name, a minus sign and a number. -/
theorem exists_apart_exponent (bound : power.natAbs ≤ 1000000) :
    ∃ us, LexesApart ('E' :: (signedText power).toList) us ∧ ∀ u ∈ us, u.IsStable := by
  have digits := isDigit_of_mem_toDigits power.natAbs
  have letter : isLetter 'E' = true := by decide
  rcases Int.lt_or_le power 0 with negative | nonneg
  · -- The sign ends the name.
    have name : Lexeme ['E'] (.name "E") := .name letter (by simp)
    have number := Lexeme.integer Nat.toDigits_ne_nil digits
    have value : numeralValue (Nat.toDigits 10 power.natAbs) [] = .ofRatio power.natAbs 1 := by
      simp [numeralValue, Nat.ofDigitChars_ten_toDigits]
    rw [value] at number
    rw [toList_signedText_of_neg negative]
    refine ⟨_, name.apart.append (by decide) (number.apart.symbol (.operator .subtract)), ?_⟩
    simp only [List.cons_append, List.nil_append, List.forall_mem_cons, List.not_mem_nil]
    exact ⟨name.isStable_name, Token.isStable_symbol _,
      Token.isStable_ofRatio one_pos (by omega) (by omega), by simp⟩
  · have name := Lexeme.name letter fun c member => isNameChar_of_isDigit (digits c member)
    rw [toList_signedText_of_nonneg nonneg]
    exact ⟨_, name.apart, by simpa using name.isStable_name⟩

/-- The text of a number with a power of ten is read as another number, and as the power. -/
theorem Double.Normalized.exists_apart (normalized : Normalized digits places power) :
    ∃ us, LexesApart (pointed digits places ++ "E" ++ signedText power).toList us ∧
      ∀ u ∈ us, u.IsStable := by
  obtain ⟨low, high, -, bound, -⟩ := normalized
  obtain ⟨us, exponent, stable⟩ := exists_apart_exponent (bound.trans (by decide))
  have lexeme := lexeme_pointed digits places
  have stop := lexeme.prolongs_of_number (show 'E'.isDigit = false by decide) (by decide)
  refine ⟨_, by simpa using exponent.front lexeme stop, List.forall_mem_cons.mpr ⟨?_, stable⟩⟩
  -- One digit stands in front of the point, and it is not a zero.
  rw [Nat.pow_succ] at high
  exact Token.isStable_ofRatio (Nat.pow_pos (by decide)) low (by omega)

end Powers

/-! ### The text of a token -/

namespace Token

section Tokens

variable {t : Token}

/-- A name in place of an infinite number does not show. -/
theorem text_nameInfinity (wellFormed : t.WellFormed) : t.nameInfinity.text = t.text := by
  cases t with
  | number value =>
    rw [nameInfinity]
    split
    · next infinite => exact (Double.text_of_infinite wellFormed.1 infinite).symm
    · rfl
  | name _ | symbol _ | endOfText | unreadable => rfl

/-- A token without a power of ten is read from its text, an infinite number as a name. -/
theorem apart_nameInfinity (wellFormed : t.WellFormed) (goesOn : t.isStop = false)
    (plain : ∀ x, t = number x → ¬x.IsScientific) : LexesApart t.text.toList [t.nameInfinity] := by
  cases t with
  | number x =>
    exact (x.lexeme_text_nameInfinity wellFormed.1 wellFormed.2 (plain x rfl)).apart
  | name _ => exact (lexeme_of_isIdentifier wellFormed).apart
  | symbol s => simpa [text, nameInfinity] using (Lexeme.symbol s).apart
  | endOfText | unreadable => cases goesOn

/-- The text of a token falls into tokens that are read from their own texts. -/
theorem exists_apart (wellFormed : t.WellFormed) (goesOn : t.isStop = false) :
    ∃ us, LexesApart t.text.toList us ∧ ∀ u ∈ us, u.IsStable := by
  by_cases scientific : ∃ x, t = number x ∧ x.IsScientific
  · obtain ⟨x, rfl, scientific⟩ := scientific
    obtain ⟨finite, notPlain⟩ := Double.isScientific_iff.mp scientific
    obtain ⟨digits, places, power, normalized, written⟩ := Double.exists_normalized finite notPlain
    rw [text, Double.text_of_finite wellFormed.1 finite, written]
    exact normalized.exists_apart
  · have plain : ∀ x, t = number x → ¬x.IsScientific := fun x same power =>
      scientific ⟨x, same, power⟩
    have apart := apart_nameInfinity wellFormed goesOn plain
    refine ⟨_, apart, List.forall_mem_singleton.mpr ?_⟩
    rw [IsStable, text_nameInfinity wellFormed]
    exact apart.tokens_eq

/-- The text of a token is read to its end, and what is read from it is stable. -/
theorem tokens_text (wellFormed : t.WellFormed) (goesOn : t.isStop = false) :
    tokens t.text = t.relexed ++ [.endOfText] ∧ ∀ u ∈ t.relexed, u.IsStable := by
  obtain ⟨us, apart, stable⟩ := exists_apart wellFormed goesOn
  have relexed : t.relexed = us := by rw [relexed, apart.tokens_eq, List.dropLast_concat]
  rw [relexed]
  exact ⟨apart.tokens_eq, stable⟩

/-- Without a power of ten, what is read from the text is the token, or a name. -/
theorem relexed_of_plain (wellFormed : t.WellFormed) (goesOn : t.isStop = false)
    (plain : ∀ x, t = number x → ¬x.IsScientific) : t.relexed = [t.nameInfinity] := by
  rw [relexed, (apart_nameInfinity wellFormed goesOn plain).tokens_eq, List.dropLast_concat]

/-- A stop is printed as something that is not read. -/
theorem tokens_text_of_isStop (stop : t.isStop = true) : tokens t.text = [.unreadable] := by
  cases t with
  | number _ | name _ | symbol _ => cases stop
  | endOfText | unreadable => decide +kernel

end Tokens

end Token

/-! ### Dumps -/

section Dumps

variable {ts : List Token} {stop : Token} {line line' : String}

/-- What is read from the texts of some tokens and of a stop is read from one after the other. -/
theorem tokens_intercalate (isStop : stop.isStop = true)
    (texts : ∀ t ∈ ts, tokens t.text = t.relexed ++ [.endOfText]) :
    tokens (" ".intercalate ((ts ++ [stop]).map Token.text)) =
      ts.flatMap Token.relexed ++ [.unreadable] := by
  induction ts with
  | nil => simpa using Token.tokens_text_of_isStop isStop
  | cons t ts ih =>
    obtain ⟨first, others⟩ := List.forall_mem_cons.mp texts
    have some : (ts ++ [stop]).map Token.text ≠ [] := by simp
    have blank : ∀ c ∈ " ".toList, isBlank c = true := by simp [isBlank]
    rw [List.cons_append, List.map_cons, String.intercalate_cons_of_ne_nil some,
      tokens_append_blanks_append first (by decide) blank, ih others, List.flatMap_cons,
      List.append_assoc]

namespace Session

/-- The tokens of a dump are those of the texts of the tokens, and they are stable. -/
theorem tokens_answer (strictness : Strictness) (line : String) :
    tokens (answer ⟨.tokens, strictness⟩ line) =
        (tokens line).dropLast.flatMap Token.relexed ++ [.unreadable] ∧
      ∀ u ∈ (tokens line).dropLast.flatMap Token.relexed, u.IsStable := by
  obtain ⟨ts, stop, all, isStop, inside⟩ := exists_tokens_eq_append line
  rw [answer, all, List.dropLast_concat]
  refine ⟨tokens_intercalate isStop fun t member => ?_, fun u member => ?_⟩
  · exact (Token.tokens_text (inside t member).1 (inside t member).2).1
  · obtain ⟨t, inTokens, inText⟩ := List.mem_flatMap.mp member
    exact (Token.tokens_text (inside t inTokens).1 (inside t inTokens).2).2 u inText

/-- Lines with the same tokens have the same dump. -/
theorem answer_congr (strictness : Strictness) (same : tokens line = tokens line') :
    answer ⟨.tokens, strictness⟩ line = answer ⟨.tokens, strictness⟩ line' := by
  simp only [answer, same]

/-- The dump of a dump has the tokens of the dump. -/
theorem tokens_answer_answer (strictness : Strictness) (line : String) :
    tokens (answer ⟨.tokens, strictness⟩ (answer ⟨.tokens, strictness⟩ line)) =
      tokens (answer ⟨.tokens, strictness⟩ line) := by
  obtain ⟨dumped, stable⟩ := tokens_answer strictness line
  have again := (tokens_answer strictness (answer ⟨.tokens, strictness⟩ line)).1
  rw [again, dumped, List.dropLast_concat, flatMap_relexed stable]

/-- Without powers of ten, a dump keeps all tokens, but for names in place of infinite numbers. -/
theorem tokens_answer_of_plain (strictness : Strictness)
    (plain : ∀ x, .number x ∈ tokens line → ¬x.IsScientific) :
    tokens (answer ⟨.tokens, strictness⟩ line) =
      (tokens line).dropLast.map Token.nameInfinity ++ [.unreadable] := by
  obtain ⟨ts, stop, all, isStop, inside⟩ := exists_tokens_eq_append line
  rw [(tokens_answer strictness line).1, all, List.dropLast_concat, ← List.flatMap_pure_eq_map]
  congr 1
  refine List.flatMap_congr fun t member => ?_
  refine Token.relexed_of_plain (inside t member).1 (inside t member).2 fun x same => plain x ?_
  rw [all, ← same]
  exact List.mem_append_left _ member

/-- **Dumps of dumps.** If every number of a line is zero, in `[1e-3, 1e7)` or infinite, then the
dump of the line has the same tokens, with a name in place of every infinite number, up to the stop;
that is printed as something that is not read, whichever of the two it is. Whatever is in a line,
the dump of its dump is dumped as itself. -/
theorem dump_of_tokens (strictness : Strictness) :
    let dump := answer ⟨.tokens, strictness⟩
    (∀ line, (∀ x, .number x ∈ tokens line → Double.InPlainRange x.magnitude ∨ x = .infinity) →
      tokens (dump line) = (tokens line).dropLast.map Token.nameInfinity ++ [.unreadable]) ∧
    (∀ t : Token, t.isStop = true → tokens t.text = [.unreadable]) ∧
    ∀ line, dump (dump (dump line)) = dump (dump line) := by
  intro dump
  refine ⟨fun line plain => tokens_answer_of_plain strictness fun x member => ?_,
    fun t => Token.tokens_text_of_isStop, fun line => ?_⟩
  · rintro ⟨finite, nonzero, outside⟩
    rcases plain x member with (zero | inside) | rfl
    · exact nonzero zero
    · exact outside inside
    · exact lt_irrefl _ finite
  · exact answer_congr strictness (tokens_answer_answer strictness line)

/-- A line with an infinite number, and one whose dump has other tokens in place of its numbers. -/
theorem dump_of_tokens_powers :
    let dump := answer ⟨.tokens, .strict⟩
    let line := "a=0.5" ++ " " ++ Double.infinity.numeral
    let half : Token := .number (.ofRatio 1 2)
    tokens line = [.name "a", .symbol .equals, half, .number .infinity, .endOfText] ∧
    tokens (dump line) = [.name "a", .symbol .equals, half, .name "Infinity", .unreadable] ∧
    Token.endOfText.isStop = true ∧ tokens Token.endOfText.text = [.unreadable] ∧
    dump "12345678/0.00012" = "1.2345678E7 / 1.2E-4 <end>" ∧
    dump (dump "12345678/0.00012") = "1.2345678 E7 / 1.2 E - 4.0 <error>" ∧
    dump (dump (dump "12345678/0.00012")) = "1.2345678 E7 / 1.2 E - 4.0 <error>" := by
  intro dump line half
  obtain ⟨plain, stops, stable⟩ := dump_of_tokens .strict
  have all : tokens line = [.name "a", .symbol .equals, half, .number .infinity, .endOfText] := by
    have front : tokens "a=0.5" = [.name "a", .symbol .equals, half] ++ [.endOfText] := by
      decide +kernel
    have numeral : Lexeme Double.infinity.numeral.toList (.number .infinity) :=
      Double.lexeme_numeral rfl (by decide)
    have whole := tokens_append_blanks_append front (by decide) (w := " ") (by simp [isBlank])
      Double.infinity.numeral
    rw [numeral.apart.tokens_eq] at whole
    exact whole
  have again : dump (dump "12345678/0.00012") = "1.2345678 E7 / 1.2 E - 4.0 <error>" := by
    decide +kernel
  refine ⟨all, ?_, rfl, stops .endOfText rfl, by decide +kernel, again, (stable _).trans again⟩
  have kept := plain line fun x member => by
    rw [all] at member
    simp only [List.mem_cons, Token.number.injEq, reduceCtorEq, false_or, or_false,
      List.not_mem_nil] at member
    rcases member with isHalf | infinite
    · obtain rfl := Token.number.inj isHalf
      exact Or.inl (Double.isPlain_eq_true_iff.mp (by decide +kernel))
    · exact Or.inr infinite
  rw [all] at kept
  exact kept.trans (by decide +kernel)

end Session

end Dumps

end Formula
