import Formula.Rule.Basic
import Formula.Statement.Basic

/-!
# The rules of arithmetic

A statement is an assignment or an expression. An expression is read in three levels, from sums
down to powers; each level is one operand of the next tighter level, followed by any number of
pairs of an operator of the level and another operand, and it is folded to the left. The operands of
the tightest level are names, numbers and expressions in parentheses.

Two bounds make the rules total. A level reads at most `steps` pairs, and parentheses nest at most
`depth` deep. Both are taken from the stream: a pair consumes two tokens and a parenthesis one, so
the number of tokens left is never reached.

## Main definitions

* `Level`, `Operator.level` — the levels of precedence
* `Rule.level`, `Rule.chain` — one level, given its operands or those of the tightest level
* `Rule.expression`, `Rule.assignment`, `Rule.statement` — the rules
* `Rule.bounded` — a rule with the bounds that a stream gives
* `Rule.atEnd` — the end of the text
-/

namespace Formula

/-- The levels of precedence, from the loosest to the tightest. -/
inductive Level where
  | sum
  | product
  | power
deriving DecidableEq, Repr

/-- The level an operator belongs to. -/
def Operator.level : Operator → Level
  | add | subtract => .sum
  | multiply | divide => .product
  | power => .power

namespace Token

/-- The text of a name. -/
def name? : Token → Option String
  | name text => some text
  | _ => none

/-- The value of a number. -/
def number? : Token → Option Double
  | number value => some value
  | _ => none

/-- The operator of a symbol, if it is one of the given level. -/
def operatorAt? (level : Level) : Token → Option Operator
  | symbol (.operator op) => if op.level = level then some op else none
  | _ => none

/-- Nothing, if the token is the given one. -/
def exactly? (wanted token : Token) : Option Unit := if token = wanted then some () else none

variable {t : Token}

theorem name?_eq_some_iff {text : String} : t.name? = some text ↔ t = .name text := by
  cases t <;> simp [name?]

theorem number?_eq_some_iff {value : Double} : t.number? = some value ↔ t = .number value := by
  cases t <;> simp [number?]

theorem operatorAt?_eq_some_iff {l : Level} {op : Operator} :
    t.operatorAt? l = some op ↔ t = .symbol (.operator op) ∧ op.level = l := by
  unfold operatorAt?
  split
  · next op' =>
    by_cases h : op'.level = l
    · simp only [h, if_true, Option.some.injEq, symbol.injEq, Symbol.operator.injEq]
      exact ⟨fun same => ⟨same, same ▸ h⟩, And.left⟩
    · simp only [h, if_false, symbol.injEq, Symbol.operator.injEq]
      exact ⟨nofun, fun ⟨same, h'⟩ => absurd (same ▸ h') h⟩
  · next other =>
    exact ⟨nofun, fun ⟨same, _⟩ => absurd same (other op)⟩

theorem exactly?_eq_some_iff {wanted : Token} {u : Unit} :
    exactly? wanted t = some u ↔ t = wanted := by
  by_cases h : t = wanted <;> simp [exactly?, h]

end Token

namespace Rule

variable {σ : Type} [TokenStream σ]

/-- A name as an expression. -/
def name : Rule σ Expr := attempt do return .name (← token Token.name?)

/-- A number as an expression. -/
def number : Rule σ Expr := attempt do return .number (← token Token.number?)

/-- An expression in parentheses. -/
def parenthesized (inner : Rule σ Expr) : Rule σ Expr := attempt do
  token (Token.exactly? (.symbol .openParen))
  let e ← inner
  token (Token.exactly? (.symbol .closeParen))
  return e

/-- An operand of the tightest level. -/
def operand (inner : Rule σ Expr) : Rule σ Expr :=
  (name.orElse number).orElse (parenthesized inner)

/-- An operator of the level and the operand on its right. -/
def operation (l : Level) (tighter : Rule σ Expr) : Rule σ (Operator × Expr) := attempt do
  let op ← token (Token.operatorAt? l)
  let right ← tighter
  return (op, right)

/-- The operations of a chain applied one after the other, from the left. -/
def foldChain (first : Expr) (chain : List (Operator × Expr)) : Expr :=
  chain.foldl (fun left (op, right) => .binary op left right) first

/-- One level: an operand, then at most `steps` operations. -/
def level (l : Level) (steps : Nat) (tighter : Rule σ Expr) : Rule σ Expr := do
  let first ← attempt tighter
  let chain ← fun s => let (chain, s') := many (operation l tighter) steps s; (some chain, s')
  return foldChain first chain

/-- The three levels over the operands of the tightest one. -/
def levels (steps : Nat) (inner : Rule σ Expr) : Rule σ Expr :=
  level .sum steps (level .product steps (level .power steps (operand inner)))

/-- The rule of a level, whose operands are those of the next tighter one. -/
def chain (steps : Nat) (inner : Rule σ Expr) : Level → Rule σ Expr
  | .power => level .power steps (operand inner)
  | .product => level .product steps (level .power steps (operand inner))
  | .sum => levels steps inner

/-- An expression with parentheses nested less than `depth` deep. -/
def expressionWithin (steps : Nat) : Nat → Rule σ Expr
  | 0, s => fail s
  | depth + 1, s => levels steps (expressionWithin steps depth) s

/-- An expression. -/
def expression : Rule σ Expr := fun s =>
  expressionWithin (TokenStream.remaining s) (TokenStream.remaining s + 1) s

/-- A rule within the bounds of the stream. It is given how many operations may follow each other, and
the expressions that may stand in parentheses. -/
def bounded (rule : Nat → Rule σ Expr → Rule σ Expr) : Rule σ Expr := fun s =>
  rule (TokenStream.remaining s)
    (expressionWithin (TokenStream.remaining s) (TokenStream.remaining s)) s

/-- A name, the equals sign and an expression. -/
def assignment : Rule σ Statement := attempt do
  let target ← token Token.name?
  token (Token.exactly? (.symbol .equals))
  return .assignment target (← expression)

/-- An assignment, or else an expression. -/
def statement : Rule σ Statement :=
  assignment.orElse do return .expression (← expression)

/-- The end of the text. -/
def atEnd : Rule σ Unit := attempt (token (Token.exactly? .endOfText))

end Rule

end Formula
