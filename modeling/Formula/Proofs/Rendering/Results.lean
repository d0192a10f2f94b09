import Formula.Proofs.Grammar.Statements
import Formula.Proofs.Lexing.Lexes
import Formula.Proofs.Rendering.WellFormed

/-!
# The statements of lines

What is read from a text are identifiers and numbers without a sign, so every statement of a line is
well-formed. Among well-formed statements equality up to numbers is equality: none of their numbers
is the negative zero or no number at all.

## Main definitions

* `Token.WellFormed` — is a token one that can be read?

## Main results

* `Statement.wellFormed_of_parse` — the statement of a line is well-formed
* `Statement.sameResult_iff` — the results of two lines are the same if they are equal
-/

namespace Formula

/-- A name is an identifier, and a number is a number without a sign. -/
def Token.WellFormed : Token → Prop
  | name text => isIdentifier text = true
  | number value => value.negative = false ∧ value.isNaN = false
  | symbol _ | endOfText | unreadable => True

section Reading

variable {l cs rest : List Char} {t : Token} {ts : List Token}

/-- What rounding gives is a number without a sign. -/
theorem Token.wellFormed_ofRatio (num den : Nat) : (Token.number (.ofRatio num den)).WellFormed :=
  ⟨rfl, decide_eq_false (Nat.not_lt.mpr (Double.rankOfRatio_le num den))⟩

/-- What is written by a lexeme is well-formed. -/
theorem Lexeme.wellFormed (lexeme : Lexeme l t) : t.WellFormed := by
  cases lexeme with
  | integer _ _ => exact Token.wellFormed_ofRatio _ _
  | decimal _ _ _ => exact Token.wellFormed_ofRatio _ _
  | name letter nameChars =>
    simpa [Token.WellFormed, isIdentifier, letter] using nameChars
  | symbol _ => trivial

/-- What is read from a text is well-formed. -/
theorem Lexes.wellFormed (lexes : Lexes cs ts rest) : ∀ t ∈ ts, t.WellFormed := by
  induction lexes with
  | nil _ => simp
  | cons _ lexeme _ _ ih => exact List.forall_mem_cons.mpr ⟨lexeme.wellFormed, ih⟩

/-- The tokens of a line are well-formed tokens in front of a stop, and the stop. -/
theorem exists_tokens_eq_append (line : String) :
    ∃ ts stop, tokens line = ts ++ [stop] ∧ stop.isStop = true ∧
      ∀ t ∈ ts, t.WellFormed ∧ t.isStop = false := by
  obtain ⟨ts, r, reads, stop, all⟩ := (Reader.ofString line).exists_tokens_eq
  have lexes := (reads_iff_lexes.mp reads).2
  exact ⟨ts, _, all, stop,
    fun t member => ⟨lexes.wellFormed t member, reads.isStop_eq_false member⟩⟩

/-- The tokens of a line are well-formed. -/
theorem wellFormed_of_mem_tokens {line : String} (member : t ∈ tokens line) : t.WellFormed := by
  obtain ⟨ts, stop, all, isStop, inside⟩ := exists_tokens_eq_append line
  rw [all, List.mem_append] at member
  rcases member with inFront | last
  · exact (inside t inFront).1
  · obtain rfl := List.mem_singleton.mp last
    cases t <;> simp_all [Token.isStop, Token.WellFormed]

end Reading

section Deriving

variable {p : Phrase} {ts : List Token} {e : Expr} {ops : List Operation} {statement : Statement}

/-- Operations on well-formed expressions give a well-formed one. -/
theorem Expr.WellFormed.foldl_apply (wellFormed : e.WellFormed)
    (operands : ∀ o ∈ ops, o.right.WellFormed) : (ops.foldl Operation.apply e).WellFormed := by
  induction ops generalizing e with
  | nil => exact wellFormed
  | cons o ops ih =>
    obtain ⟨first, others⟩ := List.forall_mem_cons.mp operands
    exact ih ⟨wellFormed, first⟩ others

/-- Well-formed tokens write well-formed expressions. -/
theorem Phrase.Derives.wellFormed (derives : p.Derives ts e) (all : ∀ t ∈ ts, t.WellFormed) :
    e.WellFormed := by
  induction derives with
  | name text => exact all (.name text) List.mem_cons_self
  | number value => exact all (.number value) List.mem_cons_self
  | parenthesized _ ih => exact ih fun t member => all t (by simp [member])
  | chain _ _ _ ihFirst ihOps =>
    rw [List.forall_mem_append] at all
    refine (ihFirst all.1).foldl_apply fun o inOps => ihOps o inOps fun t inTokens => ?_
    exact all.2 t (List.mem_flatMap.mpr ⟨o, inOps, .tail _ inTokens⟩)

/-- Well-formed tokens write well-formed statements. -/
theorem DerivesStatement.wellFormed (derives : DerivesStatement ts statement)
    (all : ∀ t ∈ ts, t.WellFormed) : statement.WellFormed := by
  cases derives with
  | assignment target derives =>
    obtain ⟨name, rest⟩ := List.forall_mem_cons.mp all
    exact ⟨name, derives.wellFormed (List.forall_mem_cons.mp rest).2⟩
  | expression derives => exact derives.wellFormed all

end Deriving

/-! ### Equality up to numbers -/

section Equality

variable {x y : Double} {e e' : Expr} {a b : Statement} {r r' : Option Statement}

/-- Numbers without a sign are equal as numbers only if they are the same. -/
theorem Double.numEq_iff (unsigned : x.negative = false ∧ x.isNaN = false)
    (unsigned' : y.negative = false ∧ y.isNaN = false) : x.numEq y = true ↔ x = y := by
  simp only [numEq, unsigned.2, unsigned'.2, Bool.not_false, Bool.true_and, Bool.or_eq_true,
    decide_eq_true_eq, or_iff_right_iff_imp]
  -- There is only one zero without a sign.
  rintro ⟨zero, zero'⟩
  obtain ⟨negative, rank, _⟩ := x
  obtain ⟨negative', rank', _⟩ := y
  obtain rfl : rank = 0 := zero
  obtain rfl : rank' = 0 := zero'
  obtain rfl : negative = negative' := unsigned.1.trans unsigned'.1.symm
  rfl

/-- Among well-formed expressions, equality up to numbers is equality. -/
theorem Expr.numEq_iff (wellFormed : e.WellFormed) (wellFormed' : e'.WellFormed) :
    e.numEq e' = true ↔ e = e' := by
  induction e generalizing e' with
  | name text => cases e' <;> simp [numEq]
  | number value =>
    cases e' with
    | number value' => simpa [numEq] using Double.numEq_iff wellFormed wellFormed'
    | name _ | binary _ _ _ => simp [numEq]
  | binary op left right ihLeft ihRight =>
    cases e' with
    | binary op' left' right' =>
      simp [numEq, ihLeft wellFormed.1 wellFormed'.1, ihRight wellFormed.2 wellFormed'.2,
        and_assoc]
    | name _ | number _ => simp [numEq]

/-- Among well-formed statements, equality up to numbers is equality. -/
theorem Statement.numEq_iff (wellFormed : a.WellFormed) (wellFormed' : b.WellFormed) :
    a.numEq b = true ↔ a = b := by
  cases a with
  | expression e =>
    cases b with
    | expression e' => simpa [numEq] using Expr.numEq_iff wellFormed wellFormed'
    | assignment _ _ => simp [numEq]
  | assignment target e =>
    cases b with
    | expression _ => simp [numEq]
    | assignment target' e' => simp [numEq, Expr.numEq_iff wellFormed.2 wellFormed'.2]

/-- The numbers of a well-formed expression are numbers without a sign. -/
theorem Expr.WellFormed.literals (wellFormed : e.WellFormed) :
    ∀ x ∈ e.literals, x.negative = false ∧ x.isNaN = false := by
  induction e with
  | name _ => simp [Expr.literals]
  | number value =>
    intro x member
    obtain rfl := List.mem_singleton.mp member
    exact wellFormed
  | binary op left right ihLeft ihRight =>
    exact List.forall_mem_append.mpr ⟨ihLeft wellFormed.1, ihRight wellFormed.2⟩

/-- The numbers of a well-formed statement are numbers without a sign. -/
theorem Statement.WellFormed.literals (wellFormed : a.WellFormed) :
    ∀ x ∈ a.literals, x.negative = false ∧ x.isNaN = false := by
  cases a with
  | expression e => exact Expr.WellFormed.literals wellFormed
  | assignment _ e => exact Expr.WellFormed.literals wellFormed.2

/-- Results with well-formed statements are the same if they are equal. -/
theorem Statement.sameResult_iff (wellFormed : ∀ a ∈ r, a.WellFormed)
    (wellFormed' : ∀ b ∈ r', b.WellFormed) : sameResult r r' = true ↔ r = r' := by
  cases r with
  | none => cases r' <;> simp [sameResult]
  | some a =>
    cases r' with
    | none => simp [sameResult]
    | some b => simpa [sameResult] using numEq_iff (wellFormed a rfl) (wellFormed' b rfl)

end Equality

namespace Statement

section Results

variable {strictness : Strictness} {line : String} {a : Statement}

/-- The statement of a line is what the rule of statements gives, strictly or leniently. -/
theorem exists_statement_of_parse (parsed : parse strictness line = some a) :
    ∃ r, Rule.statement (Reader.ofString line) = (some a, r) := by
  unfold parse ofStream? at parsed
  split at parsed
  · next statement r given =>
    cases strictness with
    | lenient =>
      obtain rfl := Option.some.inj parsed
      exact ⟨r, given⟩
    | strict =>
      obtain ⟨_, _, rfl⟩ := Option.map_eq_some_iff.mp parsed
      exact ⟨r, given⟩
  · cases parsed

/-- The statement of a line is well-formed. -/
theorem wellFormed_of_parse (parsed : parse strictness line = some a) : a.WellFormed := by
  obtain ⟨r, given⟩ := exists_statement_of_parse parsed
  obtain ⟨ts, reads, derives⟩ := statement_sound given
  exact derives.wellFormed (reads_iff_lexes.mp reads).2.wellFormed

end Results

end Statement

end Formula
