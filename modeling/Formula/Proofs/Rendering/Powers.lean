import Formula.Proofs.Double.Layout
import Formula.Proofs.Grammar.Neighbours
import Formula.Proofs.Grammar.Strict
import Formula.Proofs.Rendering.WellFormed

/-!
# Texts with a power of ten

A number with a power of ten shows in every text it is part of: there is a point, then digits, and
right behind them an `E`. In a line these digits belong to the number that has the point, whatever
else is in the line, and the `E` begins a name behind that number. No statement has such neighbours,
so what cannot be parsed again is seen from the text alone.

## Main definitions

* `ShowsPower` — does a text have a point, digits and an `E` one behind the other?

## Main results

* `Statement.showsPower_text` — a number with a power of ten shows in the text of a statement
* `Statement.parse_eq_none_of_showsPower` — a line in which a power of ten shows has no statement
-/

namespace Formula

/-- Are there a point, digits and an `E` one behind the other somewhere in the text? -/
def ShowsPower (cs : List Char) : Prop :=
  ∃ front digits back, cs = front ++ '.' :: (digits ++ 'E' :: back) ∧
    ∀ c ∈ digits, c.isDigit = true

/-! ### What shows in a text -/

section Shows

variable {cs ds : List Char} {x : Double} {e : Expr} {a : Statement}

/-- What shows in a part of a text shows in the text. -/
theorem ShowsPower.within (shows : ShowsPower cs) (inside : cs <:+: ds) : ShowsPower ds := by
  obtain ⟨front, digits, back, rfl, digit⟩ := shows
  obtain ⟨before, behind, rfl⟩ := inside
  exact ⟨before ++ front, digits, back ++ behind, by simp, digit⟩

/-- A power of ten shows in the text of a number that has one. -/
theorem Double.showsPower_text (scientific : x.IsScientific) : ShowsPower x.text.toList := by
  rw [toList_text]
  generalize text : x.abs.text.toList = cs
  have form : IsScientificText cs := text ▸ isScientificText_text_abs scientific
  cases form with
  | @mk first fraction power _ _ isFraction _ =>
    exact ⟨x.sign ++ [first], fraction, power, by simp, isFraction.digits⟩

/-- The texts of the numbers of an expression are parts of its text. -/
theorem Expr.text_infix_of_mem_literals (member : x ∈ e.literals) :
    x.text.toList <:+: e.text.toList := by
  induction e with
  | name _ => cases member
  | number value =>
    obtain rfl := List.mem_singleton.mp member
    exact List.infix_rfl
  | binary op left right ihLeft ihRight =>
    rcases List.mem_append.mp member with inLeft | inRight
    · exact (ihLeft inLeft).trans ⟨['('], ' ' :: op.char :: ' ' :: right.text.toList ++ [')'],
        by simp [text]⟩
    · exact (ihRight inRight).trans ⟨'(' :: left.text.toList ++ [' ', op.char, ' '], [')'],
        by simp [text]⟩

/-- The texts of the numbers of a statement are parts of its text. -/
theorem Statement.text_infix_of_mem_literals (member : x ∈ a.literals) :
    x.text.toList <:+: a.text.toList := by
  cases a with
  | expression e => exact Expr.text_infix_of_mem_literals (e := e) member
  | assignment target e =>
    have inside := Expr.text_infix_of_mem_literals (e := e) member
    exact inside.trans ⟨(target ++ " = ").toList, [], by simp [text]⟩

/-- A number with a power of ten shows in the text of a statement. -/
theorem Statement.showsPower_text (scientific : ∃ x ∈ a.literals, x.IsScientific) :
    ShowsPower a.text.toList := by
  obtain ⟨x, member, power⟩ := scientific
  exact (Double.showsPower_text power).within (text_infix_of_mem_literals member)

end Shows

/-! ### Lines in which a power of ten shows -/

section Lines

variable {cs l l' rest : List Char} {c : Char} {t : Token} {ts : List Token} {line : String}
variable {a : Statement}

/-- A lexeme with a point is a number. Digits follow the point, and another one would as well. -/
theorem Lexeme.of_point (lexeme : Lexeme (l ++ '.' :: l') t) :
    t.kind = .number ∧ (∀ c ∈ l', c.isDigit = true) ∧
      ∀ c, prolongs (l ++ '.' :: l') c = false → c.isDigit = false := by
  generalize text : l ++ '.' :: l' = cs at lexeme
  have point : '.' ∈ cs := by simp [← text]
  cases lexeme with
  | integer _ digits => exact absurd (digits '.' point) (by decide)
  | @decimal whole fraction some wholeDigits digits =>
    -- There is one point only.
    rcases append_eq_append_cons text.symm with ⟨more, rfl, _⟩ | ⟨_ | ⟨d, more⟩, rfl, behind⟩
    · exact absurd (wholeDigits '.' (by simp)) (by decide)
    · obtain ⟨_, rfl⟩ := List.cons.inj behind
      refine ⟨rfl, digits, fun c stop => ?_⟩
      obtain ⟨d, whole, rfl⟩ := List.exists_cons_of_ne_nil some
      simp only [List.cons_append, prolongs, wholeDigits d List.mem_cons_self, if_true,
        Bool.or_eq_false_iff] at stop
      exact stop.1
    · obtain ⟨_, rfl⟩ := List.cons.inj behind
      exact absurd (digits '.' (by simp)) (by decide)
  | @name first chars letter nameChars =>
    have nameChar : ∀ c ∈ first :: chars, isNameChar c = true :=
      List.forall_mem_cons.mpr ⟨isNameChar_of_isLetter letter, nameChars⟩
    exact absurd (nameChar '.' point) (by decide)
  | symbol s =>
    have same := List.mem_singleton.mp point
    rcases s with (_ | _ | _ | _ | _) | _ | _ | _ <;> exact absurd same (by decide)

/-- A text that begins with a letter begins with a name. -/
theorem Lexes.exists_name (lexes : Lexes (c :: cs) ts rest) (letter : isLetter c = true)
    (blank : ∀ c ∈ rest, isBlank c = true) : ∃ t us, ts = t :: us ∧ t.kind = .name := by
  generalize text : c :: cs = ds at lexes
  cases lexes with
  | nil =>
    have blankLetter := blank c (by simp [← text])
    rw [isBlank_of_isLetter letter] at blankLetter
    cases blankLetter
  | @cons blanks l mid _ t us spaces lexeme stop _ =>
    have noBlank : ∀ d ∈ (c :: cs).head?, isBlank d = false := by
      rintro _ ⟨⟩
      exact isBlank_of_isLetter letter
    have scanned := scan_append spaces lexeme stop
    rw [← text, scan, dropWhile_eq_self_of_head noBlank,
      scanToken_of_isLetter letter rfl] at scanned
    exact ⟨t, us, rfl, (Prod.mk.inj scanned).1 ▸ rfl⟩

/-- Where a power of ten shows, a name comes right behind a number. -/
theorem Lexes.not_isChain_of_showsPower (lexes : Lexes cs ts rest)
    (blank : ∀ c ∈ rest, isBlank c = true) (shows : ShowsPower cs) :
    ¬ts.IsChain Token.MayPrecede := by
  induction lexes with
  | nil cs =>
    obtain ⟨front, digits, back, rfl, _⟩ := shows
    exact absurd (blank '.' (by simp)) (by decide)
  | @cons blanks l mid rest t ts spaces lexeme stop later ih =>
    intro chain
    obtain ⟨front, digits, back, text, digit⟩ := shows
    rcases append_eq_append_cons text with ⟨_, rfl, _⟩ | ⟨front, _, inner⟩
    · exact absurd (spaces '.' (by simp)) (by decide)
    rcases append_eq_append_cons inner with ⟨fraction, rfl, behind⟩ | ⟨more, _, behind⟩
    · -- The point is in the first lexeme, and that ends with the digits behind the point.
      obtain ⟨number, fractionDigits, ends⟩ := lexeme.of_point
      have stopDigit : ∀ c ∈ mid.head?, c.isDigit = false := fun c member => ends c (stop c member)
      have letterStop : ∀ c ∈ ('E' :: back).head?, c.isDigit = false := by
        rintro _ ⟨⟩
        rfl
      obtain ⟨rfl, rfl⟩ := append_inj_of_head digit letterStop fractionDigits stopDigit behind
      obtain ⟨t', us, rfl, name⟩ := later.exists_name (by decide) blank
      exact (List.isChain_cons_cons.mp chain).1 number name
    · exact ih blank ⟨more, digits, back, behind, digit⟩ (List.isChain_cons.mp chain).2

namespace Statement

/-- A line in which a power of ten shows has no statement. -/
theorem parse_eq_none_of_showsPower (shows : ShowsPower line.toList) :
    parse .strict line = none := by
  rw [Option.eq_none_iff_forall_ne_some]
  intro statement given
  obtain ⟨ts, all, derives⟩ := parse_strict_eq_some_iff.mp given
  obtain ⟨rest, lexes, blank⟩ := tokens_eq_append_endOfText_iff.mp all
  exact lexes.not_isChain_of_showsPower blank shows derives.isChain_mayPrecede

/-- The text of a statement with a power of ten is not parsed. -/
theorem parse_text_of_scientific (scientific : ∃ x ∈ a.literals, x.IsScientific) :
    parse .strict a.text = none :=
  parse_eq_none_of_showsPower (showsPower_text scientific)

end Statement

end Lines

end Formula
