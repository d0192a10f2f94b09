import Formula.Rule.Arithmetic

/-!
# Parsing a line

A line is strictly a statement if a statement reaches to its end, and leniently one if it begins
with a statement; then whatever follows is ignored.

## Main definitions

* `Strictness` — must the statement reach to the end of the line?
* `Statement.parse` — the statement of a line
* `Statement.parseTokens` — the statement of a list of tokens, by the same rules
* `Statement.reply` — the text that answers a line
-/

namespace Formula

/-- Must a statement reach to the end of its line? -/
inductive Strictness where
  | strict
  | lenient
deriving DecidableEq, Repr

namespace Statement

/-- The statement at the front of a stream, if there is one that reaches as far as it must. -/
def ofStream? {σ : Type} [TokenStream σ] (strictness : Strictness) (s : σ) : Option Statement :=
  match Rule.statement s with
  | (some statement, s') =>
    match strictness with
    | .lenient => some statement
    | .strict => (Rule.atEnd s').1.map fun _ => statement
  | (none, _) => none

/-- The statement of a line, if it has one. -/
def parse (strictness : Strictness) (line : String) : Option Statement :=
  ofStream? strictness (Reader.ofString line)

/-- The statement of a list of tokens, if it has one. -/
def parseTokens (strictness : Strictness) (tokens : List Token) : Option Statement :=
  ofStream? strictness (TokenList.mk tokens 0)

/-- What is printed for a line without a statement. -/
def parseError : String := "Parse error"

/-- What is printed for a line: its statement, or that it has none. -/
def reply : Option Statement → String
  | some statement => statement.text
  | none => parseError

/-- Did two lines give the same, up to equality of numbers as numbers? Two lines without a statement
did. -/
def sameResult : Option Statement → Option Statement → Bool
  | some a, some b => a.numEq b
  | none, none => true
  | _, _ => false

end Statement

end Formula
