import Formula.Proofs.Double.ReadBack
import Formula.Proofs.Rendering.Results

/-!
# The text of a statement identifies it

A name and a number are one word each, and every operation stands in parentheses. So the text of an
expression can be told apart from whatever follows it at a blank or a closing parenthesis, and its
words tell names from numbers. Nothing is parsed here: a number with a power of ten, whose text is
not parsed again, is one word as well. Only an infinite number is spelled like a name.

## Main definitions

* `IsWord` — is a text free of blanks and parentheses?
* `EndsWord` — does a word in front of a text end there?

## Main results

* `Expr.text_append_inj` — the text of an expression ends where it ends, whatever follows it
* `Statement.text_eq_iff` — statements with the same text differ in infinite numbers only
* `Statement.reply_identifies_result` — what is printed for a line identifies its result
-/

namespace Formula

open Double (infinityRank)

/-! ### Words -/

/-- Is the character neither a blank nor a parenthesis? -/
def isWordChar (c : Char) : Bool := c != ' ' && c != '(' && c != ')'

/-- A word has characters, and no blanks and parentheses are among them. -/
structure IsWord (cs : List Char) : Prop where
  ne_nil : cs ≠ []
  chars : ∀ c ∈ cs, isWordChar c = true

/-- Does a word in front of the text end there? -/
def EndsWord (rest : List Char) : Prop := ∀ c ∈ rest.head?, isWordChar c = false

section Words

variable {cs cs' rest rest' : List Char} {name name' : String} {x : Double}

@[simp] theorem endsWord_nil : EndsWord [] := by simp [EndsWord]

@[simp] theorem endsWord_space (cs : List Char) : EndsWord (' ' :: cs) := by
  simp [EndsWord, isWordChar]

@[simp] theorem endsWord_closeParen (cs : List Char) : EndsWord (')' :: cs) := by
  simp [EndsWord, isWordChar]

/-- Characters of a kind that blanks and parentheses are not of make a word. -/
theorem isWord_of_forall {p : Char → Bool} (ne_nil : cs ≠ []) (all : ∀ c ∈ cs, p c = true)
    (blank : p ' ' = false) (openParen : p '(' = false) (closeParen : p ')' = false) :
    IsWord cs where
  ne_nil := ne_nil
  chars c member := by
    have kind := all c member
    rw [isWordChar, Bool.and_eq_true, Bool.and_eq_true, bne_iff_ne, bne_iff_ne, bne_iff_ne]
    refine ⟨⟨?_, ?_⟩, ?_⟩ <;> rintro rfl <;> simp_all

/-- A name is a word. -/
theorem isWord_of_isIdentifier (identifier : isIdentifier name = true) : IsWord name.toList := by
  obtain ⟨first, rest, text, _, nameChars⟩ := exists_toList_of_isIdentifier identifier
  rw [text]
  exact isWord_of_forall (List.cons_ne_nil _ _) nameChars (by decide) (by decide) (by decide)

/-- A number without a sign is a word. -/
theorem Double.isWord_text (unsigned : x.negative = false) (number : x.isNaN = false) :
    IsWord x.text.toList := by
  rcases lt_or_eq_infinityRank number with finite | infinite
  · obtain ⟨d, cs, text, _, numberChars⟩ := exists_toList_magnitudeText x.rank
    rw [text_of_finite unsigned finite, text]
    exact isWord_of_forall (List.cons_ne_nil _ _) numberChars (by decide) (by decide) (by decide)
  · rw [text_of_infinite unsigned infinite]
    exact isWord_of_isIdentifier (by decide)

/-- A finite number is not spelled like a name. -/
theorem Double.text_ne_of_isIdentifier (unsigned : x.negative = false)
    (finite : x.rank < infinityRank) (identifier : isIdentifier name = true) : x.text ≠ name := by
  rintro rfl
  obtain ⟨d, cs, text, digit, _⟩ := exists_toList_magnitudeText x.rank
  obtain ⟨first, rest, text', letter, _⟩ := exists_toList_of_isIdentifier identifier
  rw [text_of_finite unsigned finite, text] at text'
  obtain ⟨rfl, _⟩ := List.cons.inj text'
  rw [isLetter_of_isDigit digit] at letter
  cases letter

/-- A word ends where something else begins. -/
theorem IsWord.append_inj (word : IsWord cs) (word' : IsWord cs') (ends : EndsWord rest)
    (ends' : EndsWord rest') (same : cs ++ rest = cs' ++ rest') : cs = cs' ∧ rest = rest' :=
  append_inj_of_head word.chars ends word'.chars ends' same

/-- A name ends at a blank. -/
theorem eq_of_append_space (identifier : isIdentifier name = true)
    (identifier' : isIdentifier name' = true)
    (same : name.toList ++ ' ' :: rest = name'.toList ++ ' ' :: rest') :
    name = name' ∧ rest = rest' := by
  obtain ⟨sameName, behind⟩ := (isWord_of_isIdentifier identifier).append_inj
    (isWord_of_isIdentifier identifier') (endsWord_space rest) (endsWord_space rest') same
  exact ⟨String.toList_inj.mp sameName, (List.cons.inj behind).2⟩

/-- A word does not begin with a parenthesis. -/
theorem IsWord.append_ne_openParen (word : IsWord cs) : cs ++ rest ≠ '(' :: rest' := by
  obtain ⟨c, cs, rfl⟩ := List.exists_cons_of_ne_nil word.ne_nil
  intro same
  obtain ⟨rfl, _⟩ := List.cons.inj same
  exact absurd (word.chars '(' List.mem_cons_self) (by decide)

end Words

/-! ### Expressions -/

namespace Expr

/-- Is the expression a name or a number? -/
def IsAtom : Expr → Prop
  | name _ | number _ => True
  | binary _ _ _ => False

section Expressions

variable {e e' : Expr} {rest rest' : List Char}

theorem toList_text_binary (op : Operator) (left right : Expr) :
    (binary op left right).text.toList =
      '(' :: (left.text.toList ++ ' ' :: op.char :: ' ' :: (right.text.toList ++ [')'])) := by
  simp [text]

/-- A name and a number are words. -/
theorem IsAtom.isWord_text (atom : e.IsAtom) (wellFormed : e.WellFormed) :
    IsWord e.text.toList := by
  cases e with
  | name text => exact isWord_of_isIdentifier wellFormed
  | number value => exact Double.isWord_text wellFormed.1 wellFormed.2
  | binary _ _ _ => cases atom

/-- A number that is spelled like a name is infinite, and so that name. -/
theorem nameInfinities_number_of_text_eq {value : Double} {text : String}
    (wellFormed : (number value).WellFormed) (identifier : isIdentifier text = true)
    (same : value.text = text) : (number value).nameInfinities = name text := by
  obtain ⟨unsigned, isNumber⟩ := wellFormed
  rcases Double.lt_or_eq_infinityRank isNumber with finite | infinite
  · exact absurd same (Double.text_ne_of_isIdentifier unsigned finite identifier)
  · rw [nameInfinities, if_pos infinite, ← same, Double.text_of_infinite unsigned infinite]

/-- Names and numbers with the same text differ in infinite numbers only. -/
theorem IsAtom.nameInfinities_eq (atom : e.IsAtom) (atom' : e'.IsAtom) (wellFormed : e.WellFormed)
    (wellFormed' : e'.WellFormed) (same : e.text = e'.text) :
    e.nameInfinities = e'.nameInfinities := by
  cases e with
  | name text =>
    cases e' with
    | name text' => exact congrArg name same
    | number value' => exact (nameInfinities_number_of_text_eq wellFormed' wellFormed same.symm).symm
    | binary _ _ _ => cases atom'
  | number value =>
    cases e' with
    | name text' => exact nameInfinities_number_of_text_eq wellFormed wellFormed' same
    | number value' => rw [(Double.text_inj wellFormed.2 wellFormed'.2).mp same]
    | binary _ _ _ => cases atom'
  | binary _ _ _ => cases atom

/-- The text of a name or a number ends where it ends. -/
theorem IsAtom.text_append_inj (atom : e.IsAtom) (wellFormed : e.WellFormed)
    (wellFormed' : e'.WellFormed) (ends : EndsWord rest) (ends' : EndsWord rest')
    (same : e.text.toList ++ rest = e'.text.toList ++ rest') :
    e.nameInfinities = e'.nameInfinities ∧ rest = rest' := by
  have word := atom.isWord_text wellFormed
  by_cases atom' : e'.IsAtom
  · have word' := atom'.isWord_text wellFormed'
    obtain ⟨sameText, sameRest⟩ := word.append_inj word' ends ends' same
    exact ⟨atom.nameInfinities_eq atom' wellFormed wellFormed' (String.toList_inj.mp sameText),
      sameRest⟩
  · cases e' with
    | name _ | number _ => exact absurd trivial atom'
    | binary op left right =>
      rw [toList_text_binary] at same
      exact absurd same word.append_ne_openParen

/-- The text of an expression ends where it ends: whatever follows it at a blank or a parenthesis,
the two can be told apart. What is left open is whether a name is an infinite number. -/
theorem text_append_inj (wellFormed : e.WellFormed) (wellFormed' : e'.WellFormed)
    (ends : EndsWord rest) (ends' : EndsWord rest')
    (same : e.text.toList ++ rest = e'.text.toList ++ rest') :
    e.nameInfinities = e'.nameInfinities ∧ rest = rest' := by
  induction e generalizing e' rest rest' with
  | name text =>
    have atom : (name text).IsAtom := trivial
    exact atom.text_append_inj wellFormed wellFormed' ends ends' same
  | number value =>
    have atom : (number value).IsAtom := trivial
    exact atom.text_append_inj wellFormed wellFormed' ends ends' same
  | binary op left right ihLeft ihRight =>
    by_cases atom' : e'.IsAtom
    · obtain ⟨sameExpr, sameRest⟩ :=
        atom'.text_append_inj wellFormed' wellFormed ends' ends same.symm
      exact ⟨sameExpr.symm, sameRest.symm⟩
    · cases e' with
      | name _ | number _ => exact absurd trivial atom'
      | binary op' left' right' =>
        rw [toList_text_binary, toList_text_binary] at same
        simp only [List.cons_append, List.append_assoc, List.cons.injEq, true_and] at same
        -- Behind either operand stands a blank or a parenthesis, and so the operands are the same.
        obtain ⟨sameLeft, behindLeft⟩ :=
          ihLeft wellFormed.1 wellFormed'.1 (endsWord_space _) (endsWord_space _) same
        simp only [List.cons.injEq, true_and] at behindLeft
        obtain ⟨sameChar, behindOp⟩ := behindLeft
        obtain ⟨sameRight, behindRight⟩ :=
          ihRight wellFormed.2 wellFormed'.2 (endsWord_closeParen _) (endsWord_closeParen _) behindOp
        have sameOp := Symbol.operator.inj
          (@Symbol.char_inj (.operator op) (.operator op') |>.mp sameChar)
        simp only [List.nil_append, List.cons.injEq, true_and] at behindRight
        rw [nameInfinities, nameInfinities, sameLeft, sameRight, sameOp]
        exact ⟨rfl, behindRight⟩

/-- Expressions with the same text differ in infinite numbers only. -/
theorem nameInfinities_eq_of_text_eq (wellFormed : e.WellFormed) (wellFormed' : e'.WellFormed)
    (same : e.text = e'.text) : e.nameInfinities = e'.nameInfinities :=
  (text_append_inj wellFormed wellFormed' endsWord_nil endsWord_nil (by rw [same])).1

/-- The text of an expression does not go on behind a name. -/
theorem toList_text_ne_append {target : String} {cs : List Char} (wellFormed : e.WellFormed)
    (identifier : isIdentifier target = true) : e.text.toList ≠ target.toList ++ ' ' :: cs := by
  intro same
  rw [← List.append_nil e.text.toList] at same
  have behind := @text_append_inj e (.name target) [] (' ' :: cs) wellFormed identifier
    endsWord_nil (endsWord_space cs) same
  cases behind.2

end Expressions

end Expr

/-! ### Statements -/

namespace Statement

section Statements

variable {a b : Statement}

theorem toList_text_assignment (target : String) (value : Expr) :
    (assignment target value).text.toList =
      target.toList ++ ' ' :: '=' :: ' ' :: value.text.toList := by
  simp [text]

/-- Well-formed statements have the same text exactly if they differ in nothing but infinite
numbers and the name that these are spelled like. -/
theorem text_eq_iff (wellFormed : a.WellFormed) (wellFormed' : b.WellFormed) :
    a.text = b.text ↔ a.nameInfinities = b.nameInfinities := by
  constructor
  · intro same
    have sameList := congrArg String.toList same
    cases a with
    | expression e =>
      cases b with
      | expression e' =>
        exact congrArg expression (Expr.nameInfinities_eq_of_text_eq wellFormed wellFormed' same)
      | assignment target' e' =>
        rw [toList_text_assignment] at sameList
        exact absurd sameList (Expr.toList_text_ne_append wellFormed wellFormed'.1)
    | assignment target e =>
      cases b with
      | expression e' =>
        rw [toList_text_assignment] at sameList
        exact absurd sameList.symm (Expr.toList_text_ne_append wellFormed' wellFormed.1)
      | assignment target' e' =>
        rw [toList_text_assignment, toList_text_assignment] at sameList
        obtain ⟨rfl, behind⟩ := eq_of_append_space wellFormed.1 wellFormed'.1 sameList
        simp only [List.cons.injEq, true_and, String.toList_inj] at behind
        exact congrArg (assignment target)
          (Expr.nameInfinities_eq_of_text_eq wellFormed.2 wellFormed'.2 behind)
  · intro same
    rw [← text_nameInfinities wellFormed, same, text_nameInfinities wellFormed']

/-- No statement is printed as an error. -/
theorem text_ne_parseError (wellFormed : a.WellFormed) : a.text ≠ parseError := by
  intro same
  have sameList := congrArg String.toList same
  -- The error is a name with a blank behind it, and then no equals sign.
  have error : parseError.toList = "Parse".toList ++ ' ' :: "error".toList := rfl
  have name : isIdentifier "Parse" = true := by decide
  rw [error] at sameList
  cases a with
  | expression e => exact Expr.toList_text_ne_append wellFormed name sameList
  | assignment target e =>
    rw [toList_text_assignment] at sameList
    have behind := (eq_of_append_space wellFormed.1 name sameList).2
    exact absurd (List.cons.inj behind).1 (by decide)

/-- Results without infinite numbers that are printed alike are equal. -/
theorem eq_of_reply_eq {r r' : Option Statement} (wellFormed : ∀ a ∈ r, a.WellFormed)
    (wellFormed' : ∀ b ∈ r', b.WellFormed)
    (finite : ∀ a ∈ r, ∀ x ∈ a.literals, x.rank ≠ infinityRank)
    (finite' : ∀ b ∈ r', ∀ x ∈ b.literals, x.rank ≠ infinityRank) (same : reply r = reply r') :
    r = r' := by
  cases r with
  | none =>
    cases r' with
    | none => rfl
    | some b => exact absurd same.symm (text_ne_parseError (wellFormed' b rfl))
  | some a =>
    cases r' with
    | none => exact absurd same (text_ne_parseError (wellFormed a rfl))
    | some b =>
      have named := (text_eq_iff (wellFormed a rfl) (wellFormed' b rfl)).mp same
      rw [nameInfinities_eq_self_iff.mpr (finite a rfl),
        nameInfinities_eq_self_iff.mpr (finite' b rfl)] at named
      rw [named]

/-- **What is printed for a line identifies its result.** Whatever the options of each line, results
are the same up to numbers exactly if they are identical, so this is an equivalence; no number of a
result is negative, a negative zero or no number at all. Results that are the same are printed
alike, and without infinite numbers results that are printed alike are the same. No statement is
printed as an error. -/
theorem reply_identifies_result :
    (∀ p q line line', sameResult (parse p line) (parse q line') = true ↔
      parse p line = parse q line') ∧
    (∀ p line, sameResult (parse p line) (parse p line) = true) ∧
    (∀ p q line line', sameResult (parse p line) (parse q line') = true →
      sameResult (parse q line') (parse p line) = true) ∧
    (∀ p q r line line' line'', sameResult (parse p line) (parse q line') = true →
      sameResult (parse q line') (parse r line'') = true →
      sameResult (parse p line) (parse r line'') = true) ∧
    (∀ p line, ∀ a ∈ parse p line, ∀ x ∈ a.literals, x.negative = false ∧ x.isNaN = false) ∧
    (∀ p q line line', sameResult (parse p line) (parse q line') = true →
      reply (parse p line) = reply (parse q line')) ∧
    (∀ p q line line', (∀ a ∈ parse p line, ∀ x ∈ a.literals, x.rank ≠ infinityRank) →
      (∀ a ∈ parse q line', ∀ x ∈ a.literals, x.rank ≠ infinityRank) →
      reply (parse p line) = reply (parse q line') →
      sameResult (parse p line) (parse q line') = true) ∧
    ∀ p line, ∀ a ∈ parse p line, a.text ≠ parseError := by
  have wellFormed (p : Strictness) (line : String) : ∀ a ∈ parse p line, a.WellFormed :=
    fun _ => wellFormed_of_parse
  have same_iff (p q : Strictness) (line line' : String) :
      sameResult (parse p line) (parse q line') = true ↔ parse p line = parse q line' :=
    sameResult_iff (wellFormed p line) (wellFormed q line')
  refine ⟨same_iff, fun p line => (same_iff ..).mpr rfl, fun p q line line' same => ?_,
    fun p q r line line' line'' first second => ?_,
    fun p line a member => (wellFormed p line a member).literals,
    fun p q line line' same => ?_, fun p q line line' finite finite' same => ?_,
    fun p line a member => text_ne_parseError (wellFormed p line a member)⟩
  · exact (same_iff ..).mpr ((same_iff ..).mp same).symm
  · exact (same_iff ..).mpr (((same_iff ..).mp first).trans ((same_iff ..).mp second))
  · rw [(same_iff ..).mp same]
  · rw [same_iff]
    exact eq_of_reply_eq (wellFormed p line) (wellFormed q line') finite finite' same

/-- Two spellings of a number with a power of ten are printed alike, and so are the same. -/
theorem reply_identifies_result_scientific :
    let large : Statement := .assignment "x" (.number (.ofRatio 10000000 1))
    parse .strict "x = 10000000" = some large ∧ parse .lenient "x=10000000.0 )" = some large ∧
    reply (parse .strict "x = 10000000") = "x = 1.0E7" ∧
    sameResult (parse .strict "x = 10000000") (parse .lenient "x=10000000.0 )") = true ∧
    sameResult (parse .lenient "x=10000000.0 )") (parse .strict "x = 10000000") = true ∧
    sameResult (parse .strict "x = 10000000") (parse .strict "x = 10000000") = true ∧
    reply (parse .lenient "x=10000000.0 )") = reply (parse .strict "x = 10000000") ∧
    (∀ x ∈ large.literals, x.negative = false ∧ x.isNaN = false) ∧ large.text ≠ parseError := by
  intro large
  obtain ⟨_, _, symmetric, transitive, unsigned, printed, identified, noError⟩ :=
    reply_identifies_result
  have strict : parse .strict "x = 10000000" = some large := by decide +kernel
  have lenient : parse .lenient "x=10000000.0 )" = some large := by decide +kernel
  have text : large.text = "x = 1.0E7" := by decide +kernel
  have finite : ∀ a ∈ some large, ∀ x ∈ a.literals, x.rank ≠ infinityRank := by decide +kernel
  have same := identified .strict .lenient "x = 10000000" "x=10000000.0 )"
    (by rwa [strict]) (by rwa [lenient]) (by rw [strict, lenient])
  have same' := symmetric _ _ _ _ same
  exact ⟨strict, lenient, by rw [strict]; exact text, same, same', transitive _ _ _ _ _ _ same same',
    printed _ _ _ _ same', unsigned _ _ large strict, noError _ _ large strict⟩

end Statements

end Statement

end Formula
