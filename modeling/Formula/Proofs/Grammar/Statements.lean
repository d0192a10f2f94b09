import Formula.Proofs.Grammar.Rules
import Formula.Statement.Parse

/-!
# The rule of statements

The bounds of the rule of expressions come from the stream, which never holds more tokens than it
says remain, so on a bounded stream the rule follows its phrase without any bound. A statement is an
assignment before it is an expression; the equals sign, which no expression contains, keeps the two
apart.

## Main results

* `statement_sound` — what the rule reads is a token list of a statement
* `neutral_statement` — a failure leaves no trace
* `statement_complete` — a statement in front of a stop is read exactly
* `statement_reach` — a statement is read to its end at least
-/

namespace Formula

variable {σ : Type} [TokenStream σ] {s s' : σ} {ts : List Token} {e : Expr} {statement : Statement}

theorem assignment_eq_some_iff :
    Rule.assignment s = (some statement, s') ↔
      ∃ target m m' e, TokenStream.next s = (.name target, m) ∧
        TokenStream.next m = (.symbol .equals, m') ∧ Rule.expression m' = (some e, s') ∧
        statement = .assignment target e := by
  simp only [Rule.assignment, Rule.attempt_eq_some_iff, Rule.bind_eq_some_iff,
    Rule.token_eq_some_iff, Token.name?_eq_some_iff, Token.exactly?_eq_some_iff, Rule.pure_apply,
    Prod.mk.injEq, Option.some.injEq]
  constructor
  · rintro ⟨target, m, ⟨_, name, rfl⟩, _, m', ⟨_, equals, rfl⟩, e, _, given, rfl, rfl⟩
    exact ⟨target, m, m', e, name, equals, given, rfl⟩
  · rintro ⟨target, m, m', e, name, equals, given, rfl⟩
    exact ⟨target, m, ⟨_, name, rfl⟩, (), m', ⟨_, equals, rfl⟩, e, s', given, rfl, rfl⟩

/-- An expression does not begin like an assignment. -/
theorem not_equals_of_derives {target : String} {m m' : σ}
    (derives : Phrase.expression.Derives ts e)
    (reads : Reads s ts s') (name : TokenStream.next s = (.name target, m))
    (equals : TokenStream.next m = (.symbol .equals, m')) :
    ts.length = 1 ∧ TokenStream.next s' = (.symbol .equals, m') := by
  cases reads with
  | nil => exact absurd derives.length_pos (Nat.lt_irrefl 0)
  | cons next _ rest =>
    obtain ⟨rfl, rfl⟩ := Prod.mk.inj (next.symm.trans name)
    cases rest with
    | nil => exact ⟨rfl, equals⟩
    | cons next _ _ =>
      obtain ⟨rfl, rfl⟩ := Prod.mk.inj (next.symm.trans equals)
      exact absurd rfl (derives.ne_equals (.symbol .equals) (by simp))

variable [RewindableStream σ]

theorem follows_expression (s : σ) :
    Follows .expression (TokenStream.remaining s)
      (Rule.expressionWithin (TokenStream.remaining s) (TokenStream.remaining s + 1) :
        Rule σ Expr) :=
  follows_expressionWithin (Nat.le_refl _) (by omega)

theorem neutral_expression : (Rule.expression : Rule σ Expr).Neutral :=
  fun s => (follows_expression s).neutral s

theorem expression_sound (given : Rule.expression s = (some e, s')) :
    ∃ ts, Reads s ts s' ∧ Phrase.expression.Derives ts e :=
  (follows_expression s).sound given

theorem expression_complete (bounded : Bounded s) (derives : Phrase.expression.Derives ts e)
    (reads : Reads s ts s') (complete : Phrase.expression.goesOn (TokenStream.next s').1 = false) :
    Rule.expression s = (some e, s') :=
  (follows_expression s).complete derives (bounded (.nil s) reads) reads complete

theorem expression_reach (bounded : Bounded s) (derives : Phrase.expression.Derives ts e)
    (reads : Reads s ts s') :
    ∃ e' more s'', Rule.expression s = (some e', s'') ∧ Reads s' more s'' :=
  (follows_expression s).reach derives (bounded (.nil s) reads) reads

theorem neutral_assignment : (Rule.assignment : Rule σ Statement).Neutral := by
  have stays : (Rule.expression : Rule σ Expr).Stays :=
    neutral_expression.stays fun given => (expression_sound given).imp fun _ => And.left
  exact ((Rule.stays_token _).bind fun _ => (Rule.stays_token _).bind fun _ =>
    stays.bind fun _ => Rule.stays_pure _).neutral_attempt

theorem statement_eq_some_iff :
    Rule.statement s = (some statement, s') ↔
      Rule.assignment s = (some statement, s') ∨
        Rule.assignment s = (none, s) ∧
          ∃ e, Rule.expression s = (some e, s') ∧ statement = .expression e := by
  simp only [Rule.statement, neutral_assignment.orElse_eq_some_iff, Rule.bind_eq_some_iff,
    Rule.pure_apply, Prod.mk.injEq, Option.some.injEq]
  constructor
  · rintro (given | ⟨failed, e, _, given, rfl, rfl⟩)
    · exact Or.inl given
    · exact Or.inr ⟨failed, e, given, rfl⟩
  · rintro (given | ⟨failed, e, given, rfl⟩)
    · exact Or.inl given
    · exact Or.inr ⟨failed, e, s', given, rfl, rfl⟩

/-- A failure leaves no trace. -/
theorem neutral_statement : (Rule.statement : Rule σ Statement).Neutral :=
  neutral_assignment.orElse (neutral_expression.bind_pure _)

/-- What is read is a token list of an assignment. -/
theorem assignment_sound (given : Rule.assignment s = (some statement, s')) :
    ∃ ts, Reads s ts s' ∧ DerivesAssignment ts statement := by
  obtain ⟨target, m, m', e, name, equals, value, rfl⟩ := assignment_eq_some_iff.mp given
  obtain ⟨ts, reads, derives⟩ := expression_sound value
  exact ⟨_, .cons name rfl (.cons equals rfl reads), .intro target derives⟩

/-- An assignment is read to its end at least. -/
theorem assignment_reach (bounded : Bounded s) (derives : DerivesAssignment ts statement)
    (reads : Reads s ts s') :
    ∃ statement' more s'', Rule.assignment s = (some statement', s'') ∧ Reads s' more s'' := by
  cases derives with
  | intro target derives =>
    obtain ⟨m, name, _, rest⟩ := reads_cons_iff.mp reads
    obtain ⟨m', equals, _, inside⟩ := reads_cons_iff.mp rest
    have later : Bounded m' := bounded.later (.cons name rfl (.single equals rfl))
    obtain ⟨e, more, s'', value, further⟩ := expression_reach later derives inside
    exact ⟨_, more, s'', assignment_eq_some_iff.mpr ⟨target, m, m', e, name, equals, value, rfl⟩,
      further⟩

/-- What is read is a token list of a statement. -/
theorem statement_sound (given : Rule.statement s = (some statement, s')) :
    ∃ ts, Reads s ts s' ∧ DerivesStatement ts statement := by
  rcases statement_eq_some_iff.mp given with assigned | ⟨_, e, value, rfl⟩
  · obtain ⟨ts, reads, derives⟩ := assignment_sound assigned
    exact ⟨ts, reads, derives.derivesStatement⟩
  · obtain ⟨ts, reads, derives⟩ := expression_sound value
    exact ⟨ts, reads, .expression derives⟩

/-- A statement in front of a stop is read exactly. -/
theorem statement_complete (bounded : Bounded s) (derives : DerivesStatement ts statement)
    (reads : Reads s ts s') (stop : (TokenStream.next s').1.isStop = true) :
    Rule.statement s = (some statement, s') := by
  have complete : Phrase.expression.goesOn (TokenStream.next s').1 = false := by
    rcases h : (TokenStream.next s').1 with _ | _ | _ | _ | _ <;> simp_all [Token.isStop] <;> rfl
  rw [statement_eq_some_iff]
  cases derives with
  | assignment target derives =>
    obtain ⟨m, name, _, rest⟩ := reads_cons_iff.mp reads
    obtain ⟨m', equals, _, inside⟩ := reads_cons_iff.mp rest
    have later : Bounded m' := bounded.later (.cons name rfl (.single equals rfl))
    have value := expression_complete later derives inside complete
    exact Or.inl (assignment_eq_some_iff.mpr ⟨target, m, m', _, name, equals, value, rfl⟩)
  | expression derives =>
    -- Read as an assignment, the expression would have an equals sign for a stop.
    refine Or.inr ⟨neutral_assignment.eq_none fun _ _ assigned => ?_, _,
      expression_complete bounded derives reads complete, rfl⟩
    obtain ⟨target, m, m', e, name, equals, _⟩ := assignment_eq_some_iff.mp assigned
    rw [(not_equals_of_derives derives reads name equals).2] at stop
    cases stop

/-- A statement is read to its end at least. -/
theorem statement_reach (bounded : Bounded s) (derives : DerivesStatement ts statement)
    (reads : Reads s ts s') :
    ∃ statement' more s'', Rule.statement s = (some statement', s'') ∧ Reads s' more s'' := by
  cases derives with
  | assignment target derives =>
    obtain ⟨statement', more, s'', assigned, further⟩ :=
      assignment_reach bounded (.intro target derives) reads
    exact ⟨statement', more, s'', statement_eq_some_iff.mpr (Or.inl assigned), further⟩
  | expression derives =>
    rcases h : Rule.assignment s with ⟨_ | statement', s''⟩
    · obtain ⟨e, more, m, value, further⟩ := expression_reach bounded derives reads
      rw [neutral_assignment s s'' h] at h
      exact ⟨_, more, m, statement_eq_some_iff.mpr (Or.inr ⟨h, e, value, rfl⟩), further⟩
    · -- An assignment is longer than the name that an expression could be read as.
      obtain ⟨target, m, m', e, name, equals, _⟩ := assignment_eq_some_iff.mp h
      obtain ⟨us, long, assigned⟩ := assignment_sound h
      have longer := assigned.two_lt_length
      have short := (not_equals_of_derives derives reads name equals).1
      obtain ⟨more, _, further⟩ := reads.extend long (by omega)
      exact ⟨statement', more, s'', statement_eq_some_iff.mpr (Or.inl h), further⟩

end Formula
