import Formula.Double.Text
import Formula.Token.Symbol

/-!
# Expressions and statements

A statement is what a line says: an expression, or the assignment of an expression to a name.

## Main definitions

* `Expr`, `Statement` — expressions and statements
* `Expr.text`, `Statement.text` — their text, with every operation in parentheses
* `Expr.numEq`, `Statement.numEq` — equality with the numbers compared as numbers
-/

namespace Formula

/-- An arithmetic expression. -/
inductive Expr where
  | name (text : String)
  | number (value : Double)
  | binary (op : Operator) (left right : Expr)
deriving DecidableEq, Repr

namespace Expr

/-- The text of an expression. Every operation stands in parentheses, with a blank on either side of
its operator. -/
def text : Expr → String
  | name text => text
  | number value => value.text
  | binary op left right =>
    "(" ++ left.text ++ " " ++ String.singleton op.char ++ " " ++ right.text ++ ")"

/-- Are two expressions the same up to equality of their numbers as numbers? -/
def numEq : Expr → Expr → Bool
  | name a, name b => a == b
  | number x, number y => x.numEq y
  | binary op a b, binary op' a' b' => decide (op = op') && a.numEq a' && b.numEq b'
  | _, _ => false

end Expr

/-- What a line says. -/
inductive Statement where
  | expression (e : Expr)
  | assignment (target : String) (value : Expr)
deriving DecidableEq, Repr

namespace Statement

/-- The text of a statement. -/
def text : Statement → String
  | expression e => e.text
  | assignment target value => target ++ " = " ++ value.text

/-- Are two statements the same up to equality of their numbers as numbers? -/
def numEq : Statement → Statement → Bool
  | expression a, expression b => a.numEq b
  | assignment s a, assignment t b => s == t && a.numEq b
  | _, _ => false

end Statement

end Formula
