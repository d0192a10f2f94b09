import Formula.Proofs.Grammar.Derivation

/-!
# Kinds of tokens

The grammar does not ask which number or which name a token is. A token list that differs from the
tokens of a statement in nothing else is the token list of a statement too.

## Main definitions

* `Token.Kind`, `Token.kind` — a token without its number or name

## Main results

* `Phrase.Derives.of_kinds`, `DerivesStatement.of_kinds` — the kinds decide what can be derived
-/

namespace Formula

/-- What the grammar asks about a token. -/
inductive Token.Kind where
  | number
  | name
  | symbol (s : Symbol)
  | endOfText
  | unreadable
deriving DecidableEq, Repr

/-- The kind of a token. -/
def Token.kind : Token → Token.Kind
  | number _ => .number
  | name _ => .name
  | symbol s => .symbol s
  | endOfText => .endOfText
  | unreadable => .unreadable

section Kinds

variable {p : Phrase} {l : Level} {t : Token} {ts us : List Token} {e : Expr}
variable {statement : Statement}

@[simp] theorem Token.kind_number (value : Double) : (Token.number value).kind = .number := rfl

@[simp] theorem Token.kind_name (text : String) : (Token.name text).kind = .name := rfl

@[simp] theorem Token.kind_symbol (s : Symbol) : (Token.symbol s).kind = .symbol s := rfl

theorem Token.kind_eq_number_iff : t.kind = .number ↔ ∃ value, t = .number value := by
  cases t <;> simp [Token.kind]

theorem Token.kind_eq_name_iff : t.kind = .name ↔ ∃ text, t = .name text := by
  cases t <;> simp [Token.kind]

theorem Token.kind_eq_symbol_iff {s : Symbol} : t.kind = .symbol s ↔ t = .symbol s := by
  cases t <;> simp [Token.kind]

/-- If the operands of operations can be exchanged, so can the operations. -/
theorem exists_operations_of_kinds {ops : List Operation}
    (exchange : ∀ o ∈ ops, ∀ {us : List Token}, us.map Token.kind = o.tokens.map Token.kind →
      ∃ e, l.operands.Derives us e)
    (levels : ∀ o ∈ ops, o.op.level = l)
    (same : us.map Token.kind = (ops.flatMap Operation.written).map Token.kind) :
    ∃ others : List Operation, us = others.flatMap Operation.written ∧
      (∀ o ∈ others, o.op.level = l) ∧ ∀ o ∈ others, l.operands.Derives o.tokens o.right := by
  induction ops generalizing us with
  | nil => exact ⟨[], by simpa using same, by simp, by simp⟩
  | cons o ops ih =>
    obtain ⟨exchangeFirst, exchangeRest⟩ := List.forall_mem_cons.mp exchange
    obtain ⟨levelFirst, levelsRest⟩ := List.forall_mem_cons.mp levels
    rw [List.flatMap_cons, List.map_append] at same
    obtain ⟨written, rest, rfl, sameFirst, sameRest⟩ := List.map_eq_append_iff.mp same
    obtain ⟨t, tokens, rfl, sign, sameTokens⟩ := List.map_eq_cons_iff.mp sameFirst
    obtain rfl := Token.kind_eq_symbol_iff.mp sign
    obtain ⟨right, derives⟩ := exchangeFirst sameTokens
    obtain ⟨others, rfl, levelsOthers, derivesOthers⟩ := ih exchangeRest levelsRest sameRest
    exact ⟨⟨o.op, tokens, right⟩ :: others, rfl,
      List.forall_mem_cons.mpr ⟨levelFirst, levelsOthers⟩,
      List.forall_mem_cons.mpr ⟨derives, derivesOthers⟩⟩

/-- Tokens of the kinds of a phrase are tokens of the phrase. -/
theorem Phrase.Derives.of_kinds (derives : p.Derives ts e)
    (same : us.map Token.kind = ts.map Token.kind) : ∃ e', p.Derives us e' := by
  induction derives generalizing us with
  | name _ =>
    obtain ⟨t, rfl, kind⟩ := List.map_eq_singleton_iff.mp same
    obtain ⟨text, rfl⟩ := Token.kind_eq_name_iff.mp kind
    exact ⟨_, .name text⟩
  | number _ =>
    obtain ⟨t, rfl, kind⟩ := List.map_eq_singleton_iff.mp same
    obtain ⟨value, rfl⟩ := Token.kind_eq_number_iff.mp kind
    exact ⟨_, .number value⟩
  | parenthesized _ ih =>
    rw [List.map_append] at same
    -- Parentheses are of no kind but their own, so only what is inside can differ.
    obtain ⟨front, last, rfl, sameFront, sameLast⟩ := List.map_eq_append_iff.mp same
    obtain ⟨opening, inside, rfl, isOpening, sameInside⟩ := List.map_eq_cons_iff.mp sameFront
    obtain ⟨closing, rfl, isClosing⟩ := List.map_eq_singleton_iff.mp sameLast
    obtain rfl := Token.kind_eq_symbol_iff.mp isOpening
    obtain rfl := Token.kind_eq_symbol_iff.mp isClosing
    obtain ⟨e', derivesInside⟩ := ih sameInside
    exact ⟨e', derivesInside.parenthesized⟩
  | chain _ levels _ ihFirst ihOps =>
    rw [List.map_append] at same
    obtain ⟨first, rest, rfl, sameFirst, sameRest⟩ := List.map_eq_append_iff.mp same
    obtain ⟨e', derivesFirst⟩ := ihFirst sameFirst
    obtain ⟨ops, rfl, levelsOps, derivesOps⟩ := exists_operations_of_kinds ihOps levels sameRest
    exact ⟨_, .chain derivesFirst levelsOps derivesOps⟩

/-- Tokens of the kinds of a statement are tokens of a statement. -/
theorem DerivesStatement.of_kinds (derives : DerivesStatement ts statement)
    (same : us.map Token.kind = ts.map Token.kind) : ∃ other, DerivesStatement us other := by
  cases derives with
  | assignment target derives =>
    obtain ⟨name, rest, rfl, isName, sameRest⟩ := List.map_eq_cons_iff.mp same
    obtain ⟨sign, inside, rfl, isEquals, sameInside⟩ := List.map_eq_cons_iff.mp sameRest
    obtain ⟨text, rfl⟩ := Token.kind_eq_name_iff.mp isName
    obtain rfl := Token.kind_eq_symbol_iff.mp isEquals
    obtain ⟨e, derivesInside⟩ := derives.of_kinds sameInside
    exact ⟨_, .assignment text derivesInside⟩
  | expression derives =>
    obtain ⟨e, derivesOther⟩ := derives.of_kinds same
    exact ⟨_, .expression derivesOther⟩

end Kinds

end Formula
