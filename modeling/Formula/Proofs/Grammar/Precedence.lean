import Formula.Proofs.Grammar.Chains
import Formula.Proofs.Grammar.Strict
import Formula.Proofs.Lexing.Apart

/-!
# Precedence and associativity

An operand is written by a name, by a number, or by any line with an expression that is put into
parentheses. Operands with operators between them are a line with an expression as well, whichever
operators they are: it is split at the last operator among the loosest ones. Nothing is left of the
parentheses.

## Main definitions

* `WritesOperand`, `Operand` — the texts of operands, with their expressions
* `chainText` — the line of a chain of operands

## Main results

* `exists_parenthesized_of_parse` — a line with an expression stands apart in parentheses
* `parse_chainText` — the line of a chain has the expression of its split tree
-/

namespace Formula

open Statement

/-- The texts of operands, each with the expression that it writes. -/
inductive WritesOperand : String → Expr → Prop
  | name {text name : String} : Lexeme text.toList (.name name) → WritesOperand text (.name name)
  | number {text : String} {value : Double} :
      Lexeme text.toList (.number value) → WritesOperand text (.number value)
  | parenthesized {text : String} {e : Expr} :
      parse .strict text = some (.expression e) → WritesOperand ("(" ++ text ++ ")") e

/-- An operand of a chain. -/
structure Operand where
  text : String
  value : Expr
  writes : WritesOperand text value

/-- The line of a chain: its operands, with an operator and a space on either side of it between
each two of them. -/
def chainText (first : String) (links : List (Operator × Operand)) : String :=
  links.foldl (fun text link =>
    text ++ " " ++ String.singleton link.1.char ++ " " ++ link.2.text) first

section Operands

variable {text text' target : String} {ts : List Token} {e e' : Expr} {a : Statement}

/-- A line with an expression has the tokens of the expression, also in parentheses, whatever
follows them. -/
theorem exists_parenthesized_of_parse (parsed : parse .strict text = some (.expression e)) :
    ∃ ts, Phrase.expression.Derives ts e ∧
      ∀ rest, Lexes ('(' :: (text.toList ++ ')' :: rest))
        (.symbol .openParen :: ts ++ [.symbol .closeParen]) rest := by
  obtain ⟨ts, all, derives⟩ := parse_strict_eq_some_iff.mp parsed
  obtain ⟨blanks, lexes, blank⟩ := tokens_eq_append_endOfText_iff.mp all
  obtain ⟨front, pieces, apart⟩ := lexes.exists_apart
  cases derives with
  | expression derives =>
    refine ⟨ts, derives, fun rest => ?_⟩
    -- The blanks at the end of the line stand in front of the closing parenthesis.
    have closing := ((Lexes.nil rest).symbol .closeParen).blanks blank
    have inside := (apart (blanks ++ ')' :: rest)
      fun _ => separates_of_mem_head? blank (by decide)).append closing
    rw [pieces, List.append_assoc]
    exact inside.symbol .openParen

/-- An operand has the tokens of its expression, which the grammar derives as one operand. -/
theorem WritesOperand.exists_apart (writes : WritesOperand text e) :
    ∃ t ts, Phrase.operand.Derives (t :: ts) e ∧ LexesApart text.toList (t :: ts) := by
  cases writes with
  | @name _ name lexeme => exact ⟨_, [], .name name, lexeme.apart⟩
  | @number _ value lexeme => exact ⟨_, [], .number value, lexeme.apart⟩
  | parenthesized parsed =>
    obtain ⟨ts, derives, lexes⟩ := exists_parenthesized_of_parse parsed
    refine ⟨_, _, derives.parenthesized, fun rest _ => ?_⟩
    simpa using lexes rest

namespace Statement

/-- A line has the statement that its tokens write. -/
theorem parse_of_apart (apart : LexesApart text.toList ts) (derives : DerivesStatement ts a) :
    parse .strict text = some a :=
  parse_strict_eq_some_iff.mpr ⟨ts, apart.tokens_eq, derives⟩

/-- The text of an operand is a line with its expression. -/
theorem parse_of_writesOperand (writes : WritesOperand text e) :
    parse .strict text = some (.expression e) := by
  obtain ⟨t, ts, derives, apart⟩ := writes.exists_apart
  exact parse_of_apart apart (.expression (derives.chain_of_operand .sum))

/-- Two operands with an operator between them are a line with an operation. -/
theorem parse_binary (op : Operator) (left : WritesOperand text e)
    (right : WritesOperand text' e') :
    parse .strict (text ++ " " ++ String.singleton op.char ++ " " ++ text') =
      some (.expression (.binary op e e')) := by
  obtain ⟨t, ts, derives, apart⟩ := left.exists_apart
  obtain ⟨u, us, derives', apart'⟩ := right.exists_apart
  have whole := apart.append (by decide) (apart'.space.symbol (.operator op)).space
  apply parse_of_apart _ (.expression (derives.binary op derives'))
  simpa [Symbol.char] using whole

/-- An operand behind a name and an equals sign is a line with an assignment. -/
theorem parse_assignment (name : Lexeme target.toList (.name target))
    (writes : WritesOperand text e) :
    parse .strict (target ++ " = " ++ text) = some (.assignment target e) := by
  obtain ⟨t, ts, derives, apart⟩ := writes.exists_apart
  have whole := name.apart.append (by decide) (apart.space.symbol .equals).space
  apply parse_of_apart _ (.assignment target (derives.chain_of_operand .sum))
  simpa [Symbol.char] using whole

end Statement

/-- The line of a chain has the tokens of its operands and operators. -/
theorem exists_apart_chainText (apart : LexesApart text.toList ts)
    (links : List (Operator × Operand)) :
    ∃ ops : List Operation, (∀ o ∈ ops, o.IsLink) ∧
      ops.map Operation.pair = links.map (fun link => (link.1, link.2.value)) ∧
      LexesApart (chainText text links).toList (ts ++ ops.flatMap Operation.written) := by
  induction links generalizing text ts with
  | nil => exact ⟨[], by simp, rfl, by simpa [chainText] using apart⟩
  | cons link links ih =>
    obtain ⟨t, us, derives, operandApart⟩ := link.2.writes.exists_apart
    have behind := (operandApart.space.symbol (.operator link.1)).space
    have longer : LexesApart (text ++ " " ++ String.singleton link.1.char ++ " " ++
        link.2.text).toList (ts ++ .symbol (.operator link.1) :: t :: us) := by
      simpa [Symbol.char] using apart.append (by decide) behind
    obtain ⟨ops, links, pairs, whole⟩ := ih longer
    refine ⟨⟨link.1, t :: us, link.2.value⟩ :: ops, List.forall_mem_cons.mpr ⟨derives, links⟩,
      ?_, ?_⟩
    · rw [List.map_cons, pairs]
      rfl
    · simpa [Operation.written, chainText] using whole

end Operands

/-- **Precedence and associativity of chains.** A line of operands and operators, however many and
of whichever levels, is strictly an expression. It is the one that the chain has when it is split at
its last operator among the loosest ones, and its parts likewise; there is no other. -/
theorem parse_chainText (first : Operand) (links : List (Operator × Operand)) :
    ∃ e, SplitTree first.value (links.map fun link => (link.1, link.2.value)) e ∧
      (∀ e', SplitTree first.value (links.map fun link => (link.1, link.2.value)) e' → e' = e) ∧
      parse .strict (chainText first.text links) = some (.expression e) := by
  obtain ⟨t, ts, operand, apart⟩ := first.writes.exists_apart
  obtain ⟨ops, areLinks, pairs, whole⟩ := exists_apart_chainText apart links
  obtain ⟨e, derives, tree⟩ := exists_derives_splitTree operand areLinks
  rw [pairs] at tree
  refine ⟨e, tree, fun e' tree' => tree'.unique tree, parse_strict_eq_some_iff.mpr ⟨_, ?_,
    .expression derives⟩⟩
  exact tokens_eq_append_endOfText_iff.mpr ⟨[], whole.lexes, by simp⟩

/-- A chain of all three levels, with the text of a sum among its operands: the last of the two
differences is the root, and the quotient is on its left. -/
theorem parse_chainText_levels :
    let two : Expr := .number (numeralValue ['2'] [])
    let sum : Expr := .binary .add (.name "c") (.name "d")
    parse .strict "a - 2. ^ b / (c +\td ) - x_1" = some (.expression (.binary .subtract
      (.binary .subtract (.name "a") (.binary .divide (.binary .power two (.name "b")) sum))
      (.name "x_1"))) := by
  intro two sum
  have parsedSum : parse .strict "c +\td " = some (.expression sum) := by decide +kernel
  have word (c : Char) (letter : isLetter c = true) : Lexeme [c] (.name (String.ofList [c])) :=
    .name letter (by simp)
  have long : Lexeme "x_1".toList (.name "x_1") :=
    @Lexeme.name 'x' ['_', '1'] (by decide) (by simp; decide)
  have numeral : Lexeme "2.".toList (.number (numeralValue ['2'] [])) :=
    @Lexeme.decimal ['2'] [] (by simp) (by simp) (by simp)
  let links : List (Operator × Operand) := [(.subtract, ⟨"2.", two, .number numeral⟩),
    (.power, ⟨"b", .name "b", .name (word 'b' (by decide))⟩),
    (.divide, ⟨"(" ++ "c +\td " ++ ")", sum, .parenthesized parsedSum⟩),
    (.subtract, ⟨"x_1", .name "x_1", .name long⟩)]
  obtain ⟨e, -, unique, parsed⟩ :=
    parse_chainText ⟨"a", .name "a", .name (word 'a' (by decide))⟩ links
  have text : chainText "a" links = "a - 2. ^ b / (c +\td ) - x_1" := by
    simp only [chainText, links, List.foldl]
    decide +kernel
  -- The tree is split at the last difference, at the first one, at the quotient and at the power.
  have power : SplitTree two [(.power, .name "b")] (.binary .power two (.name "b")) :=
    @SplitTree.split _ _ _ _ _ [] [] (by simp) (by simp) (.single _) (.single _)
  have quotient := @SplitTree.split _ _ _ _ .divide [(.power, .name "b")] [] (by decide) (by simp)
    power (.single sum)
  have difference := @SplitTree.split _ _ _ _ .subtract [] _ (by simp)
    (by simp [Level.tightness, Operator.level]) (.single (.name "a")) quotient
  have tree := @SplitTree.split _ _ _ _ .subtract
    [(.subtract, two), (.power, .name "b"), (.divide, sum)] []
    (by simp [Level.tightness, Operator.level])
    (by simp) difference (.single (.name "x_1"))
  rw [← text, parsed, unique _ tree]

end Formula
