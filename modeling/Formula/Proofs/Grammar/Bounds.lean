import Formula.Proofs.Grammar.Strict

/-!
# Bounds that do not matter

The rules are total because they stop at a bound on operations and at another on parentheses. On a
stream that holds no more tokens than it says, every bound from that number on gives the same: two
rules that follow one phrase read equally far, and what they read writes one expression only.

## Main results

* `Phrase.Derives.unique` — a token list of a phrase writes one expression
* `Follows.eq_of_bounded` — there is only one rule that follows a phrase
* `expressionWithin_eq_expression` — larger bounds change nothing
-/

namespace Formula

/-- A token list of a phrase writes one expression. -/
theorem Phrase.Derives.unique {p : Phrase} {ts : List Token} {e e' : Expr}
    (first : p.Derives ts e) (second : p.Derives ts e') : e = e' := by
  have unique (first : Phrase.expression.Derives ts e) (second : Phrase.expression.Derives ts e') :
      e = e' :=
    Statement.expression.inj (DerivesStatement.unique (.expression first) (.expression second))
  cases p with
  | operand => exact unique (first.chain_of_operand .sum) (second.chain_of_operand .sum)
  | chain l => exact unique first.expression_of_chain second.expression_of_chain

section Loops

variable {σ : Type} [TokenStream σ] {s m : σ} {ts us : List Token}

/-- On a bounded stream nothing is read on the way from a place to itself. -/
theorem Bounded.eq_nil_of_reads_self (bounded : Bounded s) (reads : Reads s ts s) : ts = [] := by
  -- What is read once on such a way can be read any number of times.
  have again (n : Nat) : Reads s (List.replicate n ts).flatten s := by
    induction n with
    | zero => exact .nil s
    | succ n ih =>
      rw [List.replicate_succ, List.flatten_cons]
      exact reads.append ih
  have short := bounded (.nil s) (again (TokenStream.remaining s + 1))
  rw [List.length_flatten, List.map_replicate, List.sum_replicate_nat] at short
  refine List.eq_nil_of_length_eq_zero (Nat.eq_zero_of_not_pos fun positive => ?_)
  have := Nat.le_mul_of_pos_right (TokenStream.remaining s + 1) positive
  omega

/-- On a bounded stream two places determine what is read between them. -/
theorem Bounded.reads_unique (bounded : Bounded s) (first : Reads s ts m)
    (second : Reads s us m) : ts = us := by
  have later : Bounded m := bounded.later first
  rcases Nat.le_total ts.length us.length with shorter | shorter
  · obtain ⟨more, rfl, reads⟩ := first.extend second shorter
    rw [later.eq_nil_of_reads_self reads, List.append_nil]
  · obtain ⟨more, rfl, reads⟩ := second.extend first shorter
    rw [later.eq_nil_of_reads_self reads, List.append_nil]

end Loops

section Bounds

variable {σ : Type} [TokenStream σ] {s s' : σ} {e : Expr}
variable {p : Phrase} {bound bound' : Nat} {rule rule' : Rule σ Expr}

/-- What one of two rules for a phrase gives, the other one gives as well. -/
theorem Follows.eq_some_of_bounded (bounded : Bounded s) (enough : TokenStream.remaining s ≤ bound)
    (enough' : TokenStream.remaining s ≤ bound') (follows : Follows p bound rule)
    (follows' : Follows p bound' rule') (given : rule s = (some e, s')) :
    rule' s = (some e, s') := by
  obtain ⟨ts, reads, derives⟩ := follows.sound given
  obtain ⟨e', more, m, given', further⟩ :=
    follows'.reach derives (Nat.le_trans (bounded (.nil s) reads) enough') reads
  obtain ⟨us, reads', derives'⟩ := follows'.sound given'
  -- Each of the rules reads as far as the other one at least.
  obtain ⟨_, back, m', again, furtherBack⟩ :=
    follows.reach derives' (Nat.le_trans (bounded (.nil s) reads') enough) reads'
  obtain ⟨-, rfl⟩ := Prod.mk.inj (given.symm.trans again)
  have later : Bounded s' := bounded.later reads
  have loop := later.eq_nil_of_reads_self (further.append furtherBack)
  obtain rfl := (List.append_eq_nil_iff.mp loop).1
  obtain rfl := reads_nil_iff.mp further
  obtain rfl := bounded.reads_unique reads reads'
  rw [given', derives.unique derives']

/-- There is only one rule that follows a phrase. -/
theorem Follows.eq_of_bounded (bounded : Bounded s) (enough : TokenStream.remaining s ≤ bound)
    (enough' : TokenStream.remaining s ≤ bound') (follows : Follows p bound rule)
    (follows' : Follows p bound' rule') : rule s = rule' s := by
  rcases h : rule s with ⟨_ | e, m⟩
  · obtain rfl := follows.neutral s m h
    refine (follows'.neutral.eq_none fun e m given => ?_).symm
    rw [follows'.eq_some_of_bounded bounded enough' enough follows given] at h
    cases (Prod.mk.inj h).1
  · exact (follows.eq_some_of_bounded bounded enough enough' follows' h).symm

variable [RewindableStream σ]

/-- Larger bounds than those of the stream change nothing. -/
theorem expressionWithin_eq_expression {steps depth : Nat} (bounded : Bounded s)
    (enoughSteps : TokenStream.remaining s ≤ steps)
    (enoughDepth : TokenStream.remaining s ≤ 2 * depth) :
    Rule.expressionWithin steps depth s = Rule.expression s := by
  have follows : Follows .expression (TokenStream.remaining s)
      (Rule.expressionWithin steps depth : Rule σ Expr) :=
    follows_expressionWithin enoughSteps enoughDepth
  rw [Rule.expression]
  exact follows.eq_of_bounded bounded (Nat.le_refl _) (Nat.le_refl _) (follows_expression s)

end Bounds

end Formula
