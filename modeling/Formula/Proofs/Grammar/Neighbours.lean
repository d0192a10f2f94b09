import Mathlib.Data.List.Chain
import Formula.Proofs.Grammar.Kinds

/-!
# Neighbouring tokens

Two operands of an expression never stand side by side: an operator or a parenthesis is between
them. So no statement has a number with a name right behind it, however deep in parentheses.

## Main definitions

* `Token.MayPrecede` — is this not a number in front of a name?

## Main results

* `DerivesStatement.isChain_mayPrecede` — a name never follows a number in a statement
-/

namespace Formula

/-- May the second token follow the first? A name may not follow a number. -/
def Token.MayPrecede (t t' : Token) : Prop := t.kind = .number → t'.kind ≠ .name

section Neighbours

variable {p : Phrase} {ts : List Token} {e : Expr} {ops : List Operation} {statement : Statement}

/-- Operations begin with a symbol. -/
theorem mayPrecede_operations (t : Token) :
    ∀ t' ∈ (ops.flatMap Operation.written).head?, t.MayPrecede t' := by
  intro t' member _
  cases ops with
  | nil => cases member
  | cons o ops =>
    obtain rfl := Option.some.inj member
    simp

/-- If every operand of some operations is in order, so are the operations. -/
theorem isChain_operations (operands : ∀ o ∈ ops, o.tokens.IsChain Token.MayPrecede) :
    (ops.flatMap Operation.written).IsChain Token.MayPrecede := by
  induction ops with
  | nil => exact .nil
  | cons o ops ih =>
    obtain ⟨operandFirst, operandsRest⟩ := List.forall_mem_cons.mp operands
    have written : o.written.IsChain Token.MayPrecede :=
      List.isChain_cons.mpr ⟨fun _ _ isNumber => by simp at isNumber, operandFirst⟩
    rw [List.flatMap_cons]
    exact written.append (ih operandsRest) fun t _ => mayPrecede_operations t

/-- A name never follows a number in a phrase. -/
theorem Phrase.Derives.isChain_mayPrecede (derives : p.Derives ts e) :
    ts.IsChain Token.MayPrecede := by
  induction derives with
  | name _ | number _ => exact .singleton _
  | parenthesized _ ih =>
    refine List.IsChain.append (List.isChain_cons.mpr ⟨?_, ih⟩) (.singleton _) ?_
    · intro t' _ isNumber
      simp at isNumber
    · rintro t _ _ ⟨⟩ _
      simp
  | chain _ _ _ ihFirst ihOps =>
    -- Between two operands there is an operator.
    exact ihFirst.append (isChain_operations ihOps) fun t _ => mayPrecede_operations t

/-- A name never follows a number in a statement. -/
theorem DerivesStatement.isChain_mayPrecede (derives : DerivesStatement ts statement) :
    ts.IsChain Token.MayPrecede := by
  cases derives with
  | assignment target derives =>
    refine List.isChain_cons_cons.mpr ⟨?_, List.isChain_cons.mpr ⟨?_, derives.isChain_mayPrecede⟩⟩
    · intro isNumber
      simp at isNumber
    · intro t' _ isNumber
      simp at isNumber
  | expression derives => exact derives.isChain_mayPrecede

end Neighbours

end Formula
