import Formula.Statement.Parse

/-!
# Scripts of rules

A script runs tokens and rules one after the other on one stream, and may wrap any steps into an
attempt that is then kept or taken back.

## Main definitions

* `RuleStep`, `RuleAnswer` — a step of a script and what it answers
* `RuleStep.perform`, `RuleStep.performAll` — one step, and a whole script
-/

namespace Formula

/-- One step of a script. -/
inductive RuleStep where
  /-- Reads a token. -/
  | token
  | statement
  | assignment
  | expression
  | level (level : Level)
  | operand
  | name
  | number
  | parenthesized
  | atEnd
  /-- Performs the inner steps, and goes back to before them unless they are kept. -/
  | attempt (steps : List RuleStep) (kept : Bool)

/-- What a step answers. -/
inductive RuleAnswer where
  | token (token : Token)
  /-- What a rule gave, an expression being a statement too, or that it failed. -/
  | statement (result : Option Statement)
  | atEnd (holds : Bool)
  | attempt (answers : List RuleAnswer) (kept : Bool)

namespace RuleStep

variable {σ : Type} [TokenStream σ]

/-- Performs a rule that reads an expression. -/
def performExpression (rule : Rule σ Expr) (s : σ) : RuleAnswer × σ :=
  let (result, s') := rule s
  (.statement (result.map .expression), s')

mutual

/-- Performs one step, and gives its answer and the stream behind it. -/
def perform (s : σ) : RuleStep → RuleAnswer × σ
  | .token =>
    let (next, s') := TokenStream.next s
    (.token next, s')
  | .statement =>
    let (result, s') := Rule.statement s
    (.statement result, s')
  | .assignment =>
    let (result, s') := Rule.assignment s
    (.statement result, s')
  | .expression => performExpression Rule.expression s
  | .level l => performExpression (Rule.bounded fun steps inner => Rule.chain steps inner l) s
  | .operand => performExpression (Rule.bounded fun _ => Rule.operand) s
  | .name => performExpression Rule.name s
  | .number => performExpression Rule.number s
  | .parenthesized => performExpression (Rule.bounded fun _ => Rule.parenthesized) s
  | .atEnd =>
    let (result, s') := Rule.atEnd s
    (.atEnd result.isSome, s')
  | .attempt steps kept =>
    let (answers, s') := performAll s steps
    (.attempt answers kept, Rule.settle s kept s')

/-- Performs the steps in order, and gives their answers and the stream behind the last. -/
def performAll (s : σ) : List RuleStep → List RuleAnswer × σ
  | [] => ([], s)
  | step :: steps =>
    let (answer, s') := perform s step
    let (answers, s'') := performAll s' steps
    (answer :: answers, s'')

end

end RuleStep

end Formula
