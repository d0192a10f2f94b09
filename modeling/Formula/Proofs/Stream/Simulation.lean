import Formula.Rule.Arithmetic

/-!
# Rules on two streams

Two streams can give the same tokens although their places are counted differently. A relation
between the places of one stream and those of the other simulates if tokens are read and positions
are restored in step. A rule that is built alike on both streams then gives the same result from
related places and leaves both streams at related places, whatever it has tried on its way.

## Main definitions

* `Simulation` — a relation of places under which two streams read and go back in step
* `Rule.Alike` — two rules give the same from related places

## Main results

* `Rule.Alike.bind`, `Rule.Alike.attempt`, `Rule.Alike.many` — ways of building a rule keep this
* `alike_expressionWithin` — expressions with the same bounds are alike
-/

namespace Formula

/-- From related places the same token is read, and going back to related positions leads to related
places. -/
structure Simulation {σ τ : Type} [TokenStream σ] [TokenStream τ] (R : σ → τ → Prop) : Prop where
  next {s : σ} {t : τ} : R s t →
    (TokenStream.next s).1 = (TokenStream.next t).1 ∧
      R (TokenStream.next s).2 (TokenStream.next t).2
  seek {s s' : σ} {t t' : τ} : R s t → R s' t' →
    R (TokenStream.seek s' (TokenStream.position s)) (TokenStream.seek t' (TokenStream.position t))

namespace Rule

variable {σ τ α β : Type} {R : σ → τ → Prop}

/-- From related places both rules give the same result, and they end in related places. -/
def Alike (R : σ → τ → Prop) (rule : Rule σ α) (rule' : Rule τ α) : Prop :=
  ∀ s t, R s t → (rule s).1 = (rule' t).1 ∧ R (rule s).2 (rule' t).2

section Building

variable {rule second : Rule σ α} {rule' second' : Rule τ α} {s : σ} {t : τ}

/-- From related places both rules fail, or both give the same. -/
theorem Alike.cases (alike : Alike R rule rule') (related : R s t) :
    (∃ m m', rule s = (none, m) ∧ rule' t = (none, m') ∧ R m m') ∨
      ∃ a m m', rule s = (some a, m) ∧ rule' t = (some a, m') ∧ R m m' := by
  obtain ⟨same, later⟩ := alike s t related
  cases h : (rule' t).1 with
  | none => exact Or.inl ⟨_, _, Prod.ext (same.trans h) rfl, Prod.ext h rfl, later⟩
  | some a => exact Or.inr ⟨a, _, _, Prod.ext (same.trans h) rfl, Prod.ext h rfl, later⟩

theorem alike_pure (a : α) : Alike R (pure a) (pure a) := fun _ _ related => ⟨rfl, related⟩

theorem alike_fail : Alike R (fail : Rule σ α) (fail : Rule τ α) := fun _ _ related => ⟨rfl, related⟩

theorem Alike.bind {next : α → Rule σ β} {next' : α → Rule τ β} (alike : Alike R rule rule')
    (nextAlike : ∀ a, Alike R (next a) (next' a)) : Alike R (rule >>= next) (rule' >>= next') := by
  intro s t related
  obtain ⟨m, m', failed, failed', later⟩ | ⟨a, m, m', given, given', later⟩ := alike.cases related
  · rw [bind_of_none failed, bind_of_none failed']
    exact ⟨rfl, later⟩
  · rw [bind_of_some given, bind_of_some given']
    exact nextAlike a m m' later

/-- The second rules begin where the first ones have failed. -/
theorem Alike.orElse (alike : Alike R rule rule') (secondAlike : Alike R second second') :
    Alike R (rule.orElse second) (rule'.orElse second') := by
  intro s t related
  obtain ⟨m, m', failed, failed', later⟩ | ⟨a, m, m', given, given', later⟩ := alike.cases related
  · rw [orElse_of_none failed, orElse_of_none failed']
    exact secondAlike m m' later
  · rw [orElse_of_some given, orElse_of_some given']
    exact ⟨rfl, later⟩

/-- Every iteration begins at related places. -/
theorem Alike.many (alike : Alike R rule rule') (limit : Nat) (related : R s t) :
    (many rule limit s).1 = (many rule' limit t).1 ∧
      R (many rule limit s).2 (many rule' limit t).2 := by
  induction limit generalizing s t with
  | zero => exact ⟨rfl, related⟩
  | succ limit ih =>
    obtain ⟨m, m', failed, failed', later⟩ | ⟨a, m, m', given, given', later⟩ :=
      alike.cases related
    · rw [many_succ_of_none failed, many_succ_of_none failed']
      exact ⟨rfl, later⟩
    · obtain ⟨sameRest, laterRest⟩ := ih later
      rw [many_succ_of_some given, many_succ_of_some given', sameRest]
      exact ⟨rfl, laterRest⟩

variable [TokenStream σ] [TokenStream τ]

theorem alike_token (simulation : Simulation R) (wanted : Token → Option α) :
    Alike R (token wanted) (token wanted) := by
  intro s t related
  obtain ⟨same, later⟩ := simulation.next related
  exact ⟨congrArg wanted same, later⟩

/-- An attempt that fails goes back to places that are related because it began there. -/
theorem Alike.attempt (simulation : Simulation R) (alike : Alike R rule rule') :
    Alike R rule.attempt rule'.attempt := by
  intro s t related
  obtain ⟨same, later⟩ := alike s t related
  refine ⟨same, ?_⟩
  simp only [Rule.attempt, settle, same]
  split
  · exact later
  · exact simulation.seek related later

end Building

/-! ### The rules of arithmetic -/

section Arithmetic

variable [TokenStream σ] [TokenStream τ] (simulation : Simulation R)
variable {inner tighter : Rule σ Expr} {inner' tighter' : Rule τ Expr}

include simulation

theorem alike_name : Alike R (name : Rule σ Expr) name :=
  ((alike_token simulation _).bind fun _ => alike_pure _).attempt simulation

theorem alike_number : Alike R (number : Rule σ Expr) number :=
  ((alike_token simulation _).bind fun _ => alike_pure _).attempt simulation

theorem Alike.parenthesized (alike : Alike R inner inner') :
    Alike R (parenthesized inner) (parenthesized inner') :=
  ((alike_token simulation _).bind fun _ => alike.bind fun _ =>
    (alike_token simulation _).bind fun _ => alike_pure _).attempt simulation

theorem Alike.operand (alike : Alike R inner inner') : Alike R (operand inner) (operand inner') :=
  ((alike_name simulation).orElse (alike_number simulation)).orElse (alike.parenthesized simulation)

theorem Alike.operation (l : Level) (alike : Alike R tighter tighter') :
    Alike R (operation l tighter) (operation l tighter') :=
  ((alike_token simulation _).bind fun _ => alike.bind fun _ => alike_pure _).attempt simulation

theorem Alike.level (l : Level) (steps : Nat) (alike : Alike R tighter tighter') :
    Alike R (level l steps tighter) (level l steps tighter') := by
  refine (alike.attempt simulation).bind fun first => Alike.bind ?_ fun chain => alike_pure _
  intro s t related
  obtain ⟨same, later⟩ := (alike.operation simulation l).many steps related
  exact ⟨congrArg some same, later⟩

/-- Expressions with the same bounds are alike. -/
theorem alike_expressionWithin (steps depth : Nat) :
    Alike R (expressionWithin steps depth : Rule σ Expr) (expressionWithin steps depth) := by
  induction depth with
  | zero => exact alike_fail
  | succ depth ih =>
    have operand := ih.operand simulation
    have power := operand.level simulation .power steps
    have product := power.level simulation .product steps
    exact product.level simulation .sum steps

end Arithmetic

end Rule

end Formula
