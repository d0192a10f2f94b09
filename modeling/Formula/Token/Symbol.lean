/-!
# Operators and symbols

## Main definitions

* `Operator` — the five binary operators
* `Symbol` — the single-character symbols: the operators, the equals sign and the parentheses
* `Symbol.ofChar?` — the symbol written by a character

## Main results

* `Symbol.ofChar?_eq_some_iff` — a symbol is written by its own character and by no other
-/

namespace Formula

/-- The binary operators. -/
inductive Operator where
  | add
  | subtract
  | multiply
  | divide
  | power
deriving DecidableEq, Repr

/-- The character that writes an operator. -/
def Operator.char : Operator → Char
  | add => '+'
  | subtract => '-'
  | multiply => '*'
  | divide => '/'
  | power => '^'

/-- The symbols, each one character long. -/
inductive Symbol where
  | operator (op : Operator)
  | equals
  | openParen
  | closeParen
deriving DecidableEq, Repr

namespace Symbol

/-- The character that writes a symbol. -/
def char : Symbol → Char
  | operator op => op.char
  | equals => '='
  | openParen => '('
  | closeParen => ')'

/-- The symbol that a character writes, if it writes one. -/
def ofChar? : Char → Option Symbol
  | '+' => some (operator .add)
  | '-' => some (operator .subtract)
  | '*' => some (operator .multiply)
  | '/' => some (operator .divide)
  | '^' => some (operator .power)
  | '=' => some equals
  | '(' => some openParen
  | ')' => some closeParen
  | _ => none

@[simp] theorem ofChar?_char (s : Symbol) : ofChar? s.char = some s := by
  rcases s with (_ | _ | _ | _ | _) | _ | _ | _ <;> rfl

/-- A symbol is written by its own character and by no other. -/
theorem ofChar?_eq_some_iff {c : Char} {s : Symbol} : ofChar? c = some s ↔ c = s.char := by
  constructor
  · unfold ofChar?
    split <;> intro h <;> cases h <;> rfl
  · rintro rfl
    exact ofChar?_char s

/-- Different symbols are written by different characters. -/
theorem char_inj {s t : Symbol} : s.char = t.char ↔ s = t := by
  rw [← ofChar?_eq_some_iff, ofChar?_char, Option.some.injEq]

end Symbol

end Formula
