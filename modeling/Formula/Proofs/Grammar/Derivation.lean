import Formula.Rule.Arithmetic

/-!
# The grammar

The grammar says which token lists write an expression or a statement, without saying how to find
that out. A chain of a level is an operand of the next tighter level, followed by any number of
operations of the level; its expression is folded to the left. No grammar rule mentions a stream,
an order of alternatives or a failure.

## Main definitions

* `Phrase` — what the grammar derives below a statement
* `Operation` — an operator and the operand on its right
* `Phrase.Derives` — the token lists of a phrase, each with an expression
* `DerivesStatement` — the token lists of a statement
* `DerivesAssignment` — the token lists of an assignment

## Main results

* `Phrase.Derives.forall_mem` — of what kinds the tokens of a phrase are
-/

namespace Formula

/-- The phrases of an expression. -/
inductive Phrase where
  /-- A name, a number or an expression in parentheses. -/
  | operand
  /-- Operands of the next tighter level, joined by operators of this one. -/
  | chain (l : Level)
deriving DecidableEq, Repr

/-- What the operators of a level join. -/
def Level.operands : Level → Phrase
  | .sum => .chain .product
  | .product => .chain .power
  | .power => .operand

/-- The phrase of a whole expression. -/
abbrev Phrase.expression : Phrase := .chain .sum

/-- An operator with the tokens and the expression of the operand on its right. -/
structure Operation where
  op : Operator
  tokens : List Token
  right : Expr

namespace Operation

/-- The tokens of an operation. -/
def written (o : Operation) : List Token := .symbol (.operator o.op) :: o.tokens

/-- An operation applied to the expression on its left. -/
def apply (left : Expr) (o : Operation) : Expr := .binary o.op left o.right

end Operation

/-- The token lists of a phrase, and the expression that each of them writes. -/
inductive Phrase.Derives : Phrase → List Token → Expr → Prop
  | name (text : String) : Derives .operand [.name text] (.name text)
  | number (value : Double) : Derives .operand [.number value] (.number value)
  | parenthesized {ts : List Token} {e : Expr} :
      Derives .expression ts e →
      Derives .operand (.symbol .openParen :: ts ++ [.symbol .closeParen]) e
  | chain {l : Level} {first : List Token} {e : Expr} {ops : List Operation} :
      Derives l.operands first e →
      (∀ o ∈ ops, o.op.level = l) →
      (∀ o ∈ ops, Derives l.operands o.tokens o.right) →
      Derives (.chain l) (first ++ ops.flatMap Operation.written) (ops.foldl Operation.apply e)

/-- The token lists of a statement, and the statement that each of them writes. -/
inductive DerivesStatement : List Token → Statement → Prop
  | assignment (target : String) {ts : List Token} {e : Expr} :
      Phrase.expression.Derives ts e →
      DerivesStatement (.name target :: .symbol .equals :: ts) (.assignment target e)
  | expression {ts : List Token} {e : Expr} :
      Phrase.expression.Derives ts e → DerivesStatement ts (.expression e)

/-- The token lists of an assignment, and the statement that each of them writes. -/
inductive DerivesAssignment : List Token → Statement → Prop
  | intro (target : String) {ts : List Token} {e : Expr} :
      Phrase.expression.Derives ts e →
      DerivesAssignment (.name target :: .symbol .equals :: ts) (.assignment target e)

section Embedding

variable {l : Level} {ts us : List Token} {e left right : Expr}

/-- An operand of a level is a chain of the level without operations. -/
theorem Phrase.Derives.chain_of_operands (derives : l.operands.Derives ts e) :
    (Phrase.chain l).Derives ts e := by
  have h := @Derives.chain l ts e [] derives (by simp) (by simp)
  simpa using h

/-- A chain of any level is an expression. -/
theorem Phrase.Derives.expression_of_chain (derives : (Phrase.chain l).Derives ts e) :
    Phrase.expression.Derives ts e := by
  cases l with
  | sum => exact derives
  | product => exact derives.chain_of_operands (l := .sum)
  | power => exact (derives.chain_of_operands (l := .product)).chain_of_operands (l := .sum)

/-- An operand is a chain of every level. -/
theorem Phrase.Derives.chain_of_operand (derives : Phrase.operand.Derives ts e) (l : Level) :
    (Phrase.chain l).Derives ts e := by
  have power := derives.chain_of_operands (l := .power)
  have product := power.chain_of_operands (l := .product)
  cases l with
  | sum => exact product.chain_of_operands (l := .sum)
  | product => exact product
  | power => exact power

/-- An operand is an operand of every level. -/
theorem Phrase.Derives.operands_of_operand (derives : Phrase.operand.Derives ts e) (l : Level) :
    l.operands.Derives ts e := by
  cases l with
  | sum => exact derives.chain_of_operand .product
  | product => exact derives.chain_of_operand .power
  | power => exact derives

/-- Two operands and an operator between them are an expression. -/
theorem Phrase.Derives.binary (op : Operator) (derivesLeft : Phrase.operand.Derives ts left)
    (derivesRight : Phrase.operand.Derives us right) :
    Phrase.expression.Derives (ts ++ .symbol (.operator op) :: us) (.binary op left right) := by
  have h := @Derives.chain op.level ts left [⟨op, us, right⟩]
    (derivesLeft.operands_of_operand op.level) (by simp)
    (by simpa using derivesRight.operands_of_operand op.level)
  simpa [Operation.written, Operation.apply] using h.expression_of_chain

end Embedding

section Tokens

variable {p : Phrase} {ts : List Token} {e : Expr} {statement : Statement}

/-- A property of names, numbers, operators and parentheses holds of all tokens of a phrase. -/
theorem Phrase.Derives.forall_mem {P : Token → Prop} (name : ∀ text, P (.name text))
    (number : ∀ value, P (.number value)) (operator : ∀ op, P (.symbol (.operator op)))
    (openParen : P (.symbol .openParen)) (closeParen : P (.symbol .closeParen))
    (derives : p.Derives ts e) : ∀ t ∈ ts, P t := by
  induction derives with
  | name text => simpa using name text
  | number value => simpa using number value
  | parenthesized _ ih => simpa [openParen, closeParen, or_imp, forall_and] using ih
  | chain _ _ _ ihFirst ihOps =>
    -- A token is in the first operand, or it is an operator or in the operand behind one.
    intro t member
    rcases List.mem_append.mp member with inFirst | inOps
    · exact ihFirst t inFirst
    · obtain ⟨o, ho, inWritten⟩ := List.mem_flatMap.mp inOps
      rcases List.mem_cons.mp inWritten with rfl | inTokens
      · exact operator o.op
      · exact ihOps o ho t inTokens

/-- No stop is part of a phrase. -/
theorem Phrase.Derives.isStop_eq_false (derives : p.Derives ts e) : ∀ t ∈ ts, t.isStop = false :=
  derives.forall_mem (fun _ => rfl) (fun _ => rfl) (fun _ => rfl) rfl rfl

/-- The equals sign is part of no phrase. -/
theorem Phrase.Derives.ne_equals (derives : p.Derives ts e) : ∀ t ∈ ts, t ≠ .symbol .equals :=
  derives.forall_mem (by simp) (by simp) (by simp) (by simp) (by simp)

/-- No phrase is empty. -/
theorem Phrase.Derives.length_pos (derives : p.Derives ts e) : 0 < ts.length := by
  induction derives with
  | name _ | number _ | parenthesized _ _ => simp
  | chain _ _ _ ihFirst _ =>
    rw [List.length_append]
    omega

/-- No stop is part of a statement. -/
theorem DerivesStatement.isStop_eq_false (derives : DerivesStatement ts statement) :
    ∀ t ∈ ts, t.isStop = false := by
  cases derives with
  | assignment target derives =>
    simpa [Token.isStop] using derives.isStop_eq_false
  | expression derives => exact derives.isStop_eq_false

/-- No statement is empty. -/
theorem DerivesStatement.ne_nil (derives : DerivesStatement ts statement) : ts ≠ [] := by
  cases derives with
  | assignment target _ => exact List.cons_ne_nil _ _
  | expression derives => exact List.ne_nil_of_length_pos derives.length_pos

theorem DerivesAssignment.derivesStatement (derives : DerivesAssignment ts statement) :
    DerivesStatement ts statement := by
  cases derives with
  | intro target derives => exact .assignment target derives

/-- There is an expression behind the equals sign of an assignment. -/
theorem DerivesAssignment.two_lt_length (derives : DerivesAssignment ts statement) :
    2 < ts.length := by
  cases derives with
  | intro target derives =>
    have := derives.length_pos
    simp only [List.length_cons]
    omega

end Tokens

end Formula
