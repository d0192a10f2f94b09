import Formula.Proofs.Grammar.Precedence
import Formula.Proofs.Rendering.Powers

/-!
# Parsing the text of a statement

In the text of a statement every operation stands in parentheses, and every name and number apart
from its neighbours, so the text is one operand again. A number with a power of ten is the only
thing that falls into pieces, and its first two pieces cannot stand side by side in any statement.

## Main results

* `Double.lexeme_text_nameInfinity` — the text of a number is a token
* `Expr.writesOperand_text` — the text of an expression is an operand
* `Statement.parse_text_iff` — which texts are parsed again, and as what
-/

namespace Formula

open Double (infinityRank)

/-- A number without a power of ten is read from its text, an infinite number as a name. -/
theorem Double.lexeme_text_nameInfinity {x : Double} (unsigned : x.negative = false)
    (number : x.isNaN = false) (plain : ¬x.IsScientific) :
    Lexeme x.text.toList (Token.number x).nameInfinity := by
  rw [Token.nameInfinity]
  rcases lt_or_eq_infinityRank number with finite | infinite
  · have plain : isPlain x.rank = true := by
      by_contra notPlain
      exact plain (isScientific_iff.mpr ⟨finite, Bool.eq_false_iff.mpr notPlain⟩)
    rw [if_neg finite.ne]
    exact lexeme_text unsigned plain
  · rw [if_pos infinite, text_of_infinite unsigned infinite]
    exact lexeme_of_isIdentifier (by decide)

/-- The text of an expression without powers of ten is an operand, with a name for every infinite
number. -/
theorem Expr.writesOperand_text {e : Expr} (wellFormed : e.WellFormed)
    (plain : ∀ x ∈ e.literals, ¬x.IsScientific) : WritesOperand e.text e.nameInfinities := by
  induction e with
  | name text => exact .name (lexeme_of_isIdentifier wellFormed)
  | number value =>
    have lexeme := Double.lexeme_text_nameInfinity wellFormed.1 wellFormed.2
      (plain value List.mem_cons_self)
    rw [Token.nameInfinity] at lexeme
    rw [nameInfinities]
    by_cases infinite : value.rank = infinityRank
    · rw [if_pos infinite] at lexeme ⊢
      exact .name lexeme
    · rw [if_neg infinite] at lexeme ⊢
      exact .number lexeme
  | binary op left right ihLeft ihRight =>
    rw [literals, List.forall_mem_append] at plain
    have whole : (binary op left right).text = "(" ++ (left.text ++ " " ++
        String.singleton op.char ++ " " ++ right.text) ++ ")" := by
      simp only [text, String.append_assoc]
    rw [whole]
    exact .parenthesized
      (Statement.parse_binary op (ihLeft wellFormed.1 plain.1) (ihRight wellFormed.2 plain.2))

namespace Statement

section Statements

variable {a : Statement}

/-- The text of a statement without powers of ten is parsed as the statement, with a name for every
infinite number. -/
theorem parse_text (wellFormed : a.WellFormed)
    (plain : ∀ x ∈ a.literals, ¬x.IsScientific) : parse .strict a.text = some a.nameInfinities := by
  cases a with
  | expression e => exact parse_of_writesOperand (Expr.writesOperand_text wellFormed plain)
  | assignment target e =>
    exact parse_assignment (lexeme_of_isIdentifier wellFormed.1)
      (Expr.writesOperand_text wellFormed.2 plain)

/-- The text of a statement is refused exactly if a number has a power of ten. -/
theorem parse_text_eq_none_iff (wellFormed : a.WellFormed) :
    parse .strict a.text = none ↔ ∃ x ∈ a.literals, x.IsScientific := by
  refine ⟨fun refused => ?_, parse_text_of_scientific⟩
  -- If no number had a power of ten, the text would be parsed.
  by_contra none
  have plain : ∀ x ∈ a.literals, ¬x.IsScientific := fun x member scientific =>
    none ⟨x, member, scientific⟩
  rw [parse_text wellFormed plain] at refused
  cases refused

/-- **Rendering and parsing again.** The text of a well-formed statement is refused exactly if one
of its numbers is finite, not zero and outside `[1e-3, 1e7)`. Any other text is parsed as the
statement with a name for every infinite number; that has the same text, and it is the statement
itself exactly if no number is infinite. -/
theorem parse_text_iff (a : Statement) (wellFormed : a.WellFormed) :
    (parse .strict a.text = none ↔ ∃ x ∈ a.literals, x.IsScientific) ∧
    ((∀ x ∈ a.literals, ¬x.IsScientific) → parse .strict a.text = some a.nameInfinities) ∧
    a.nameInfinities.text = a.text ∧
    (a.nameInfinities = a ↔ ∀ x ∈ a.literals, x.rank ≠ infinityRank) := by
  refine ⟨parse_text_eq_none_iff wellFormed, ?_, ?_, ?_⟩
  · exact parse_text wellFormed
  · exact text_nameInfinities wellFormed
  · exact nameInfinities_eq_self_iff

/-- An infinite number comes back as a name, and a number with a power of ten not at all. -/
theorem parse_text_iff_infinite :
    let infinite : Expr := .number ⟨false, infinityRank, by decide⟩
    let tenth : Expr := .number (.ofRatio 1 10)
    let large : Expr := .number (.ofRatio 10000000 1)
    (Statement.assignment "x" (.binary .power infinite tenth)).WellFormed ∧
    parse .strict "x = (Infinity ^ 0.1)" =
      some (.assignment "x" (.binary .power (.name "Infinity") tenth)) ∧
    (Statement.expression large).WellFormed ∧ parse .strict "1.0E7" = none := by
  intro infinite tenth large
  have wellFormed : (Statement.assignment "x" (.binary .power infinite tenth)).WellFormed :=
    ⟨by decide, ⟨rfl, by decide⟩, rfl, by decide +kernel⟩
  have wellFormedLarge : (Statement.expression large).WellFormed := ⟨rfl, by decide +kernel⟩
  refine ⟨wellFormed, ?_, wellFormedLarge, ?_⟩
  · obtain ⟨_, parsed, _⟩ := parse_text_iff _ wellFormed
    have text : (Statement.assignment "x" (.binary .power infinite tenth)).text =
        "x = (Infinity ^ 0.1)" := by decide +kernel
    have named : (Statement.assignment "x" (.binary .power infinite tenth)).nameInfinities =
        .assignment "x" (.binary .power (.name "Infinity") tenth) := by decide +kernel
    rw [text, named] at parsed
    refine parsed fun x member scientific => ?_
    obtain ⟨finite, notPlain⟩ := Double.isScientific_iff.mp scientific
    rcases List.mem_pair.mp member with rfl | rfl
    · exact absurd finite (by decide)
    · exact absurd notPlain (by decide +kernel)
  · obtain ⟨refused, _⟩ := parse_text_iff _ wellFormedLarge
    have text : (Statement.expression large).text = "1.0E7" := by decide +kernel
    rw [text] at refused
    refine refused.mpr ⟨_, List.mem_cons_self, Double.isScientific_iff.mpr ⟨?_, ?_⟩⟩
    · decide +kernel
    · decide +kernel

end Statements

end Statement

end Formula
