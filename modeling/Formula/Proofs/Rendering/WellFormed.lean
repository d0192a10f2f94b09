import Formula.Proofs.Lexing.Lexeme
import Formula.Statement.Basic

/-!
# Statements that can be written down

Not every expression has a text of its own: a name may be no identifier, and a number may have a
sign or be no number at all. Without these, only infinite numbers share their text with something
else, the name that is spelled like them.

## Main definitions

* `isIdentifier` — is a text a name?
* `Expr.WellFormed`, `Statement.WellFormed` — names are identifiers and numbers have no sign
* `Expr.literals`, `Statement.literals` — the numbers that occur
* `Token.nameInfinity`, `Expr.nameInfinities`, `Statement.nameInfinities` — infinite numbers become
  names

## Main results

* `Statement.text_nameInfinities` — the text stays the same
* `Statement.nameInfinities_eq_self_iff` — nothing changes where no number is infinite
-/

namespace Formula

/-- Is the text a name: a letter, and then letters, numeric characters and underscores? -/
def isIdentifier (text : String) : Bool :=
  match text.toList with
  | [] => false
  | first :: rest => isLetter first && rest.all isNameChar

/-- The token, or a name in place of an infinite number. -/
def Token.nameInfinity : Token → Token
  | number value => if value.rank = Double.infinityRank then name "Infinity" else number value
  | t => t

/-- A name begins with a letter, and all its characters are those of names. -/
theorem exists_toList_of_isIdentifier {name : String} (identifier : isIdentifier name = true) :
    ∃ first rest, name.toList = first :: rest ∧ isLetter first = true ∧
      ∀ c ∈ first :: rest, isNameChar c = true := by
  unfold isIdentifier at identifier
  split at identifier
  · cases identifier
  · next first rest text =>
    rw [Bool.and_eq_true, List.all_eq_true] at identifier
    obtain ⟨letter, nameChars⟩ := identifier
    exact ⟨first, rest, text, letter,
      List.forall_mem_cons.mpr ⟨isNameChar_of_isLetter letter, nameChars⟩⟩

/-- An identifier is a token. -/
theorem lexeme_of_isIdentifier {name : String} (identifier : isIdentifier name = true) :
    Lexeme name.toList (.name name) := by
  obtain ⟨first, rest, text, letter, nameChars⟩ := exists_toList_of_isIdentifier identifier
  have lexeme := Lexeme.name letter (List.forall_mem_cons.mp nameChars).2
  rwa [← text, String.ofList_toList] at lexeme

namespace Expr

/-- Every name is an identifier, and every number is a number without a sign. -/
def WellFormed : Expr → Prop
  | name text => isIdentifier text = true
  | number value => value.negative = false ∧ value.isNaN = false
  | binary _ left right => left.WellFormed ∧ right.WellFormed

/-- The numbers of an expression, from left to right. -/
def literals : Expr → List Double
  | name _ => []
  | number value => [value]
  | binary _ left right => left.literals ++ right.literals

/-- The expression with a name in place of every infinite number. -/
def nameInfinities : Expr → Expr
  | name text => name text
  | number value => if value.rank = Double.infinityRank then name "Infinity" else number value
  | binary op left right => binary op left.nameInfinities right.nameInfinities

/-- A name in place of an infinite number does not show. -/
theorem text_nameInfinities {e : Expr} (wellFormed : e.WellFormed) :
    e.nameInfinities.text = e.text := by
  induction e with
  | name text => rfl
  | number value =>
    obtain ⟨unsigned, number⟩ := wellFormed
    rw [nameInfinities]
    split
    · next infinite => simp [text, Double.text, unsigned, number, infinite]
    · rfl
  | binary op left right ihLeft ihRight =>
    rw [nameInfinities, text, ihLeft wellFormed.1, ihRight wellFormed.2, text]

/-- Only infinite numbers are replaced. -/
theorem nameInfinities_eq_self_iff {e : Expr} :
    e.nameInfinities = e ↔ ∀ x ∈ e.literals, x.rank ≠ Double.infinityRank := by
  induction e with
  | name text => simp [nameInfinities, literals]
  | number value => simp [nameInfinities, literals]
  | binary op left right ihLeft ihRight =>
    simp [nameInfinities, literals, ihLeft, ihRight, or_imp, forall_and]

end Expr

namespace Statement

/-- The expression of a statement. -/
def value : Statement → Expr
  | expression e => e
  | assignment _ e => e

/-- The statement with another expression. -/
def withValue : Statement → Expr → Statement
  | expression _, e => expression e
  | assignment target _, e => assignment target e

/-- Every name is an identifier, also that which is assigned to, and every number is a number
without a sign. -/
def WellFormed : Statement → Prop
  | expression e => e.WellFormed
  | assignment target e => isIdentifier target = true ∧ e.WellFormed

/-- The numbers of a statement, from left to right. -/
def literals (a : Statement) : List Double := a.value.literals

/-- The statement with a name in place of every infinite number. -/
def nameInfinities (a : Statement) : Statement := a.withValue a.value.nameInfinities

/-- A name in place of an infinite number does not show. -/
theorem text_nameInfinities {a : Statement} (wellFormed : a.WellFormed) :
    a.nameInfinities.text = a.text := by
  cases a with
  | expression e => exact Expr.text_nameInfinities wellFormed
  | assignment target e =>
    change target ++ " = " ++ e.nameInfinities.text = target ++ " = " ++ e.text
    rw [Expr.text_nameInfinities wellFormed.2]

/-- Only infinite numbers are replaced. -/
theorem nameInfinities_eq_self_iff {a : Statement} :
    a.nameInfinities = a ↔ ∀ x ∈ a.literals, x.rank ≠ Double.infinityRank := by
  rw [literals, ← Expr.nameInfinities_eq_self_iff]
  cases a <;> simp [nameInfinities, withValue, value]

end Statement

end Formula
