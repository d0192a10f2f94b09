import Formula.Proofs.Grammar.Statements
import Formula.Rule.Script

/-!
# Failures that leave no trace

Not every rule is an attempt: an expression reads an operand and then operations, and a statement
tries two rules in turn. Still each of them ends where it began when it fails, for whatever was read
in vain was read within an attempt. The same holds of scripts. What is done within an attempt that
is taken back cannot be told afterwards, at whatever depth the attempt stands, and so it can be left
out of its script.

## Main definitions

* `Gap` — a script with one place left open
* `RuleStep.performAround` — what is done around such a place

## Main results

* `neutral_chain`, `neutral_operand` — rules that are no attempts leave no trace either
* `RuleStep.perform_attempt_of_not_kept` — an attempt that is not kept leaves no trace
* `RuleStep.performAll_fill` — filled with what leaves no trace, a gap does not show
* `failure_leaves_no_trace` — all rules and all scripts
-/

namespace Formula

/-! ### Rules -/

section Rules

variable {σ : Type} [TokenStream σ] [RewindableStream σ] {inner : Rule σ Expr} {bound : Nat}

/-- The rule of a level follows the chains of the level. -/
theorem follows_chain {steps : Nat} (follows : Follows .expression bound inner)
    (enough : bound ≤ steps) (l : Level) : Follows (.chain l) bound (Rule.chain steps inner l) := by
  have operand := (follows_operand follows).mono (Nat.le_add_right bound 2)
  have power : Follows (.chain .power) bound _ := follows_level operand enough
  have product : Follows (.chain .product) bound _ := follows_level power enough
  cases l with
  | sum => exact follows_level product enough
  | product => exact product
  | power => exact power

/-- Whatever its bounds are, the rule of expressions follows its phrase on no tokens at all. -/
theorem follows_expressionWithin_zero (steps depth : Nat) :
    Follows .expression 0 (Rule.expressionWithin steps depth : Rule σ Expr) :=
  follows_expressionWithin (Nat.zero_le steps) (Nat.zero_le _)

/-- A level that fails leaves no trace. -/
theorem neutral_chain (steps depth : Nat) (l : Level) :
    (Rule.chain steps (Rule.expressionWithin steps depth) l : Rule σ Expr).Neutral :=
  (follows_chain (follows_expressionWithin_zero steps depth) (Nat.zero_le steps) l).neutral

/-- An operand that fails leaves no trace. -/
theorem neutral_operand (steps depth : Nat) :
    (Rule.operand (Rule.expressionWithin steps depth) : Rule σ Expr).Neutral :=
  (follows_operand (follows_expressionWithin_zero steps depth)).neutral

theorem neutral_atEnd : (Rule.atEnd : Rule σ Unit).Neutral := (Rule.stays_token _).neutral_attempt

theorem stays_expression : (Rule.expression : Rule σ Expr).Stays :=
  neutral_expression.stays fun given => (expression_sound given).imp fun _ => And.left

theorem stays_assignment : (Rule.assignment : Rule σ Statement).Stays :=
  neutral_assignment.stays fun given => (assignment_sound given).imp fun _ => And.left

theorem stays_statement : (Rule.statement : Rule σ Statement).Stays :=
  neutral_statement.stays fun given => (statement_sound given).imp fun _ => And.left

theorem stays_atEnd : (Rule.atEnd : Rule σ Unit).Stays := (Rule.stays_token _).attempt

theorem stays_name : (Rule.name : Rule σ Expr).Stays :=
  ((Rule.stays_token _).bind fun _ => Rule.stays_pure _).attempt

theorem stays_number : (Rule.number : Rule σ Expr).Stays :=
  ((Rule.stays_token _).bind fun _ => Rule.stays_pure _).attempt

/-! Rules with bounds stay in their text whatever the bounds are. -/

theorem stays_bounded_chain (l : Level) :
    (Rule.bounded fun steps inner => Rule.chain steps inner l : Rule σ Expr).Stays :=
  fun s => (follows_chain (follows_expressionWithin_zero _ _) (Nat.zero_le _) l).stays s

theorem stays_bounded_operand : (Rule.bounded fun _ => Rule.operand : Rule σ Expr).Stays :=
  fun s => (follows_operand (follows_expressionWithin_zero _ _)).stays s

theorem stays_bounded_parenthesized :
    (Rule.bounded fun _ => Rule.parenthesized : Rule σ Expr).Stays :=
  fun s => (stays_between (follows_expressionWithin_zero _ _).stays _ _).attempt s

end Rules

/-! ### Scripts -/

/-- A script in which one place is left open, either in the script itself or in an attempt of it. -/
inductive Gap (α : Type) where
  | here (before after : List α)
  | within (before : List α) (inner : Gap α) (kept : Bool) (after : List α)

/-- The script with the open place filled. -/
def Gap.fill {α : Type} (attempt : List α → Bool → α) : Gap α → List α → List α
  | here before after, middle => before ++ middle ++ after
  | within before inner kept after, middle =>
    before ++ attempt (inner.fill attempt middle) kept :: after

namespace RuleStep

/-- Performs what is around an open place, and gives its answers around the same place. -/
def performAround {σ : Type} [TokenStream σ] (s : σ) : Gap RuleStep → Gap RuleAnswer × σ
  | .here before after =>
    let (answers, m) := performAll s before
    let (more, s') := performAll m after
    (.here answers more, s')
  | .within before inner kept after =>
    let (answers, m) := performAll s before
    let (around, m') := performAround m inner
    let (more, s') := performAll (Rule.settle m kept m') after
    (.within answers around kept more, s')

section Attempts

variable {σ : Type} [TokenStream σ]

theorem performAll_cons (s : σ) (step : RuleStep) (steps : List RuleStep) :
    performAll s (step :: steps) = ((perform s step).1 :: (performAll (perform s step).2 steps).1,
      (performAll (perform s step).2 steps).2) := by
  rw [performAll]

/-- A script in two parts is the first part and then the second. -/
theorem performAll_append (s : σ) (first second : List RuleStep) :
    performAll s (first ++ second) =
      ((performAll s first).1 ++ (performAll (performAll s first).2 second).1,
        (performAll (performAll s first).2 second).2) := by
  induction first generalizing s with
  | nil => simp [performAll]
  | cons step steps ih => simp [performAll_cons, ih]

/-- Filled with what leaves no trace, a gap does not show in the answers around it. -/
theorem performAll_fill {middle : List RuleStep} (noTrace : ∀ m : σ, (performAll m middle).2 = m)
    (s : σ) (gap : Gap RuleStep) :
    ∃ m : σ, performAll s (gap.fill .attempt middle) =
      ((performAround s gap).1.fill .attempt (performAll m middle).1, (performAround s gap).2) := by
  induction gap generalizing s with
  | here before after =>
    refine ⟨(performAll s before).2, ?_⟩
    simp only [Gap.fill, performAll_append, performAround, noTrace]
  | within before inner kept after ih =>
    obtain ⟨m, inside⟩ := ih (performAll s before).2
    refine ⟨m, ?_⟩
    simp only [Gap.fill, performAll_append, performAll_cons, performAround, perform, inside]

variable [RewindableStream σ]

mutual

/-- No step leaves the text. -/
theorem sameText_perform (s : σ) (step : RuleStep) :
    RewindableStream.SameText s (perform s step).2 := by
  cases step with
  | token => exact RewindableStream.sameText_next s
  | statement => exact stays_statement s
  | assignment => exact stays_assignment s
  | expression => exact stays_expression s
  | level l => exact stays_bounded_chain l s
  | operand => exact stays_bounded_operand s
  | name => exact stays_name s
  | number => exact stays_number s
  | parenthesized => exact stays_bounded_parenthesized s
  | atEnd => exact stays_atEnd s
  | attempt steps kept =>
    have inside := sameText_performAll s steps
    rw [perform]
    cases kept with
    | true => exact inside
    | false =>
      exact RewindableStream.equivalence.trans inside (RewindableStream.sameText_seek _ _)

/-- No script leaves the text. -/
theorem sameText_performAll (s : σ) (steps : List RuleStep) :
    RewindableStream.SameText s (performAll s steps).2 := by
  cases steps with
  | nil =>
    rw [performAll]
    exact RewindableStream.equivalence.refl s
  | cons step steps =>
    rw [performAll_cons]
    exact RewindableStream.equivalence.trans (sameText_perform s step)
      (sameText_performAll (perform s step).2 steps)

end

/-- An attempt that is not kept leaves no trace, whatever is done within. -/
theorem perform_attempt_of_not_kept (s : σ) (steps : List RuleStep) :
    perform s (.attempt steps false) = (.attempt (performAll s steps).1 false, s) := by
  rw [perform]
  exact Prod.ext rfl (RewindableStream.seek_position (sameText_performAll s steps))

end Attempts

end RuleStep

/-- **Failures leave no trace.** Each rule, at every level, ends where it began when it fails, and so
does an attempt at any rule that stays in its text. In a script an attempt that is not kept ends
where it began, whatever is done within; where it stands, at any depth and between any steps, the
script without it gives the same answers around that place and ends alike. -/
theorem failure_leaves_no_trace :
    ((Rule.statement : Rule Reader Statement).Neutral ∧
      (Rule.assignment : Rule Reader Statement).Neutral ∧
      (Rule.expression : Rule Reader Expr).Neutral ∧
      (∀ steps depth l,
        (Rule.chain steps (Rule.expressionWithin steps depth) l : Rule Reader Expr).Neutral) ∧
      (∀ steps depth,
        (Rule.operand (Rule.expressionWithin steps depth) : Rule Reader Expr).Neutral) ∧
      (Rule.name : Rule Reader Expr).Neutral ∧ (Rule.number : Rule Reader Expr).Neutral ∧
      (∀ steps depth,
        (Rule.parenthesized (Rule.expressionWithin steps depth) : Rule Reader Expr).Neutral) ∧
      (Rule.atEnd : Rule Reader Unit).Neutral) ∧
    (∀ (α : Type) (rule : Rule Reader α), rule.Stays → rule.attempt.Neutral) ∧
    (∀ (r : Reader) (steps : List RuleStep), (RuleStep.perform r (.attempt steps false)).2 = r) ∧
    ∀ (r : Reader) (gap : Gap RuleStep) (steps : List RuleStep), ∃ answers,
      RuleStep.performAll r (gap.fill .attempt [.attempt steps false]) =
        ((RuleStep.performAround r gap).1.fill .attempt [.attempt answers false],
          (RuleStep.performAround r gap).2) ∧
      RuleStep.performAll r (gap.fill .attempt []) =
        ((RuleStep.performAround r gap).1.fill .attempt [], (RuleStep.performAround r gap).2) := by
  refine ⟨⟨neutral_statement, neutral_assignment, neutral_expression, neutral_chain,
    neutral_operand, neutral_name, neutral_number, fun steps depth => ?_, neutral_atEnd⟩,
    fun α rule stays => stays.neutral_attempt, fun r steps => ?_, fun r gap steps => ?_⟩
  · exact neutral_parenthesized (follows_expressionWithin_zero steps depth).stays
  · rw [RuleStep.perform_attempt_of_not_kept]
  · have leavesNoTrace (m : Reader) :
        RuleStep.performAll m [.attempt steps false] =
          ([.attempt (RuleStep.performAll m steps).1 false], m) := by
      rw [RuleStep.performAll_cons, RuleStep.perform_attempt_of_not_kept, RuleStep.performAll]
    have nothing (m : Reader) : RuleStep.performAll m [] = ([], m) := by rw [RuleStep.performAll]
    obtain ⟨m, filled⟩ :=
      RuleStep.performAll_fill (fun m => congrArg Prod.snd (leavesNoTrace m)) r gap
    obtain ⟨_, empty⟩ := RuleStep.performAll_fill (fun m => congrArg Prod.snd (nothing m)) r gap
    rw [leavesNoTrace] at filled
    rw [nothing] at empty
    exact ⟨_, filled, empty⟩

/-- A parenthesis that is not closed, behind an equals sign and a blank: neither the expression nor
the assignment leaves a trace, and no more does an attempt at an expression and a number behind it,
although the expression is found. -/
theorem failure_leaves_no_trace_unclosed :
    let line := Reader.ofString "é = (1 + 2 x"
    let number : Rule Reader Double := do
      let _ ← Rule.expression
      Rule.token Token.number?
    (line.seek 4).unread = [' ', '(', '1', ' ', '+', ' ', '2', ' ', 'x'] ∧
    Rule.expression (line.seek 4) = (none, line.seek 4) ∧ Rule.assignment line = (none, line) ∧
    number.Stays ∧ number.attempt line = (none, line) ∧
    (RuleStep.perform line (.attempt [.name, .token, .parenthesized, .attempt [.token] true,
      .level .power, .operand, .number] false)).2 = line := by
  intro line number
  obtain ⟨⟨-, assignment, expression, -⟩, attempt, step, -⟩ := failure_leaves_no_trace
  have stays : number.Stays := stays_expression.bind fun _ => Rule.stays_token _
  have fails {α : Type} {rule : Rule Reader α} {r : Reader} (neutral : rule.Neutral)
      (failed : (rule r).1 = none) : rule r = (none, r) :=
    Prod.ext failed (neutral r _ (Prod.ext failed rfl))
  exact ⟨by decide, fails expression (by decide +kernel), fails assignment (by decide +kernel),
    stays, fails (attempt _ number stays) (by decide +kernel), step line _⟩

end Formula
