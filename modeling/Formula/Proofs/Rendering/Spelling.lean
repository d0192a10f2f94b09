import Formula.Proofs.Double.Interval
import Formula.Proofs.Double.ReadBack
import Formula.Proofs.Grammar.Lenient
import Formula.Proofs.Grammar.Precedence
import Formula.Proofs.Rendering.Reparsing
import Formula.Proofs.Rendering.Results

/-!
# The range of parsing

The statements that lines have are the well-formed ones, and all of these. A line for a well-formed
statement is found by writing every operation in parentheses, as in its text, but every number with
all its digits at their places: a magnitude is a whole multiple of `10 ^ (-1074)`. For infinity the
digits of `2 ^ 1024` are written, which is the first power of two that is rounded to it.

## Main definitions

* `Double.numeral` — all digits of a number, without a power of ten
* `Expr.spelled`, `Statement.spelled` — a line for an expression, and for a statement
* `Expr.operators` — the operators that occur

## Main results

* `Double.lexeme_numeral` — a number is read from its digits
* `Statement.parse_spelled` — a well-formed statement has a line
* `Statement.range_of_parse` — the statements of lines are the well-formed ones
-/

namespace Formula

/-- All digits of the magnitude of a double, with a point. -/
def Double.numeral (x : Double) : String := pointed (decimalUnits x.rank) 1074

namespace Expr

/-- A line for an expression, with every operation in parentheses and every number with all its
digits. -/
def spelled : Expr → String
  | name text => text
  | number value => value.numeral
  | binary op left right =>
    "(" ++ (left.spelled ++ " " ++ String.singleton op.char ++ " " ++ right.spelled) ++ ")"

/-- The operators of an expression. -/
def operators : Expr → List Operator
  | name _ | number _ => []
  | binary op left right => left.operators ++ op :: right.operators

end Expr

namespace Statement

/-- A line for a statement. -/
def spelled : Statement → String
  | expression e => e.spelled
  | assignment target e => target ++ " = " ++ e.spelled

/-- The operators of a statement. -/
def operators (a : Statement) : List Operator := a.value.operators

end Statement

/-! ### Numbers -/

section Numbers

namespace Double

variable {x : Double}

/-- Digits with a point are read as the double that is nearest to what they write. -/
theorem IsNearest.lexeme_pointed {n places : Nat} (nearest : IsNearest (n / 10 ^ places) x) :
    Lexeme (pointed n places).toList (.number x) := by
  have rounded := isNearest_ofRatio n (Nat.pow_pos (n := places) (Nat.succ_pos 9))
  rw [Nat.cast_pow] at rounded
  have same : ofRatio n (10 ^ places) = x := rounded.unique (by exact_mod_cast nearest)
  exact same ▸ Formula.lexeme_pointed n places

/-- A number without a sign is read from its digits, infinity too. -/
theorem lexeme_numeral (unsigned : x.negative = false) (number : x.isNaN = false) :
    Lexeme x.numeral.toList (.number x) := by
  have le : x.rank ≤ infinityRank := by simpa [isNaN] using number
  apply IsNearest.lexeme_pointed
  rw [← rankMagnitude_eq_div]
  exact (inInterval_rankMagnitude x.rank).isNearest unsigned (Nat.min_eq_right le).symm

end Double

end Numbers

/-! ### Lines -/

section Lines

variable {e : Expr} {a : Statement}

/-- The line of a well-formed expression is an operand. -/
theorem Expr.writesOperand_spelled (wellFormed : e.WellFormed) : WritesOperand e.spelled e := by
  induction e with
  | name text => exact .name (lexeme_of_isIdentifier wellFormed)
  | number value => exact .number (Double.lexeme_numeral wellFormed.1 wellFormed.2)
  | binary op left right ihLeft ihRight =>
    exact .parenthesized
      (Statement.parse_binary op (ihLeft wellFormed.1) (ihRight wellFormed.2))

/-- A well-formed statement has a line. -/
theorem Statement.parse_spelled (wellFormed : a.WellFormed) :
    parse .strict a.spelled = some a := by
  cases a with
  | expression e => exact parse_of_writesOperand (Expr.writesOperand_spelled wellFormed)
  | assignment target e =>
    exact parse_assignment (lexeme_of_isIdentifier wellFormed.1)
      (Expr.writesOperand_spelled wellFormed.2)

/-- **The range of parsing.** The statement of a line, strictly or leniently, is well-formed: its
names are identifiers, and its numbers are numbers without a sign. Its operators are the five, and
never the equals sign or a parenthesis. Every well-formed statement is that of a line, strictly, so
these are all statements that lines have. -/
theorem Statement.range_of_parse :
    (∀ strictness line a, parse strictness line = some a → a.WellFormed ∧
      ∀ op ∈ a.operators, op.char ∈ ['+', '-', '*', '/', '^']) ∧
    (∀ a : Statement, a.WellFormed → parse .strict a.spelled = some a) ∧
    ∀ strictness a, (∃ line, parse strictness line = some a) ↔ a.WellFormed := by
  refine ⟨fun strictness line a parsed => ⟨wellFormed_of_parse parsed, fun op _ => ?_⟩,
    fun a wellFormed => parse_spelled wellFormed, fun strictness a => ⟨?_, fun wellFormed => ?_⟩⟩
  · cases op <;> decide
  · rintro ⟨line, parsed⟩
    exact wellFormed_of_parse parsed
  · refine ⟨a.spelled, ?_⟩
    have strictly := parse_spelled wellFormed
    cases strictness with
    | strict => exact strictly
    | lenient => exact parse_lenient_eq_some_iff.mpr (exists_statement_of_parse strictly)

/-- The least positive number and infinity are written with digits, and so is a large one that has
a power of ten in its text. -/
theorem Statement.range_of_parse_extremes :
    let least : Expr := .number (.ofBits 1)
    let infinite : Expr := .number .infinity
    let large : Expr := .number (.ofRatio 10000000 1)
    let a : Statement := .assignment "x" (.binary .power (.binary .divide least large) infinite)
    a.WellFormed ∧ parse .strict a.spelled = some a ∧ parse .strict large.text = none := by
  intro least infinite large a
  obtain ⟨-, spelled, -⟩ := range_of_parse
  have wellFormed : a.WellFormed :=
    ⟨by decide, ⟨⟨rfl, by decide⟩, rfl, by decide +kernel⟩, rfl, by decide⟩
  exact ⟨wellFormed, spelled a wellFormed, by decide +kernel⟩

end Lines

end Formula
