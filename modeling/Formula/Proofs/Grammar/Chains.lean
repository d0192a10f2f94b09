import Formula.Proofs.Grammar.Rules

/-!
# Chains of operands

The grammar builds an expression in three levels, each of them folded to the left. Read from the
root of the result, a chain of operands and operators of any levels falls apart at its last operator
among the loosest ones, and its two parts fall apart likewise. Both give every chain one expression,
and the same one.

## Main definitions

* `Level.tightness` — the order of the levels
* `SplitTree` — the expression of a chain that is split at its last loosest operator

## Main results

* `SplitTree.unique` — there is one such expression at most
* `exists_derives_splitTree` — the grammar derives every chain, and with this expression
-/

namespace Formula

/-- How tightly the operators of a level bind. -/
def Level.tightness : Level → Nat
  | sum => 0
  | product => 1
  | power => 2

/-- The expression of a chain: its only operand, or the operation of an operator that is the last
one among those that bind the least tightly, applied to the expressions of the chains before and
behind it. -/
inductive SplitTree : Expr → List (Operator × Expr) → Expr → Prop
  | single (e : Expr) : SplitTree e [] e
  | split {first e left right : Expr} {op : Operator} {before after : List (Operator × Expr)} :
      (∀ o ∈ before, op.level.tightness ≤ o.1.level.tightness) →
      (∀ o ∈ after, op.level.tightness < o.1.level.tightness) →
      SplitTree first before left → SplitTree e after right →
      SplitTree first (before ++ (op, e) :: after) (.binary op left right)

section Uniqueness

variable {first e e' : Expr} {op op' : Operator} {chain : List (Operator × Expr)}
variable {before after before' after' : List (Operator × Expr)}

/-- A chain has only one last loosest operator. -/
theorem split_unique (loose : ∀ o ∈ before, op.level.tightness ≤ o.1.level.tightness)
    (tight : ∀ o ∈ after, op.level.tightness < o.1.level.tightness)
    (loose' : ∀ o ∈ before', op'.level.tightness ≤ o.1.level.tightness)
    (tight' : ∀ o ∈ after', op'.level.tightness < o.1.level.tightness)
    (same : before ++ (op, e) :: after = before' ++ (op', e') :: after') :
    before = before' ∧ op = op' ∧ e = e' ∧ after = after' := by
  -- Of two different such operators the first would have to bind less tightly than the second, and
  -- the second no more tightly than the first.
  rcases List.append_eq_append_iff.mp same with ⟨more, rfl, behind⟩ | ⟨more, rfl, behind⟩
  · cases more with
    | nil => simpa [and_assoc] using behind
    | cons o more =>
      obtain ⟨rfl, rfl⟩ := List.cons.inj behind
      have less := tight (op', e') (by simp)
      have noMore := loose' (op, e) (by simp)
      exact absurd noMore (Nat.not_le_of_lt less)
  · cases more with
    | nil => simpa [eq_comm, and_assoc] using behind
    | cons o more =>
      obtain ⟨rfl, rfl⟩ := List.cons.inj behind
      have less := tight' (op, e) (by simp)
      have noMore := loose (op', e') (by simp)
      exact absurd noMore (Nat.not_le_of_lt less)

/-- A chain has one expression at most. -/
theorem SplitTree.unique (tree : SplitTree first chain e) (tree' : SplitTree first chain e') :
    e = e' := by
  induction tree generalizing e' with
  | single e =>
    generalize none : [] = chain at tree'
    cases tree' with
    | single _ => rfl
    | split _ _ _ _ => simp at none
  | split loose tight _ _ ihLeft ihRight =>
    generalize same : _ ++ _ :: _ = chain at tree'
    cases tree' with
    | single _ => simp at same
    | split loose' tight' treeLeft treeRight =>
      obtain ⟨rfl, rfl, rfl, rfl⟩ := split_unique loose tight loose' tight' same
      rw [ihLeft treeLeft, ihRight treeRight]

end Uniqueness

section Grouping

variable {l : Level} {p : Phrase} {n : Nat} {ts : List Token} {e left : Expr}
variable {ops : List Operation}

/-- Is the operation an operator with an operand behind it that is no chain itself? -/
def Operation.IsLink (o : Operation) : Prop := Phrase.operand.Derives o.tokens o.right

/-- Chains of operators that bind at least as tightly as `n` are derived as the phrase, and with
the expressions that splitting gives. -/
def Phrase.Groups (p : Phrase) (n : Nat) : Prop :=
  ∀ ⦃ts : List Token⦄ ⦃e : Expr⦄ ⦃ops : List Operation⦄, Phrase.operand.Derives ts e →
    (∀ o ∈ ops, o.IsLink) → (∀ o ∈ ops, n ≤ o.op.level.tightness) →
    ∃ e', p.Derives (ts ++ ops.flatMap Operation.written) e' ∧
      SplitTree e (ops.map Operation.pair) e'

/-- An operation can be put behind a chain of its level. -/
theorem Phrase.Derives.concat (derives : (Phrase.chain l).Derives ts left) {o : Operation}
    (fits : o.Fits l) :
    (Phrase.chain l).Derives (ts ++ o.written) (.binary o.op left o.right) := by
  cases derives with
  | @chain _ first e ops derivesFirst levels operands =>
    have longer := @Derives.chain l first e (ops ++ [o]) derivesFirst
      (List.forall_mem_append.mpr ⟨levels, by simpa using fits.1⟩)
      (List.forall_mem_append.mpr ⟨operands, by simpa using fits.2⟩)
    simpa [Operation.apply] using longer

/-- No operator binds more tightly than a power, so an operand alone is all there is to group. -/
theorem groups_operand : Phrase.operand.Groups 3 := by
  intro ts e ops derives _ tight
  cases ops with
  | nil => exact ⟨e, by simpa using derives, .single e⟩
  | cons o ops =>
    have impossible := tight o List.mem_cons_self
    cases level : o.op.level <;> simp [level, Level.tightness] at impossible

theorem Level.tightness_inj {l l' : Level} (same : l.tightness = l'.tightness) : l = l' := by
  cases l <;> cases l' <;> first | rfl | cases same

/-- Either all operators bind more tightly than those of a level, or one is of the level and only
tighter ones come behind it. -/
theorem exists_last_of_level (atLeast : ∀ o ∈ ops, l.tightness ≤ o.op.level.tightness) :
    (∀ o ∈ ops, l.tightness < o.op.level.tightness) ∨
      ∃ before o after, ops = before ++ o :: after ∧ o.op.level = l ∧
        ∀ o ∈ after, l.tightness < o.op.level.tightness := by
  induction ops with
  | nil => exact Or.inl (by simp)
  | cons o ops ih =>
    obtain ⟨atLeastFirst, atLeastRest⟩ := List.forall_mem_cons.mp atLeast
    rcases ih atLeastRest with tight | ⟨before, o', after, rfl, level, tight⟩
    · rcases Nat.lt_or_eq_of_le atLeastFirst with tighter | same
      · exact Or.inl (List.forall_mem_cons.mpr ⟨tighter, tight⟩)
      · exact Or.inr ⟨[], o, ops, rfl, (Level.tightness_inj same).symm, tight⟩
    · exact Or.inr ⟨o :: before, o', after, rfl, level, tight⟩

/-- If the operands of a level group all tighter operators, the level groups its own as well. -/
theorem groups_chain (groups : l.operands.Groups (l.tightness + 1)) :
    (Phrase.chain l).Groups l.tightness := by
  intro ts e ops derives links atLeast
  induction n : ops.length using Nat.strongRecOn generalizing ops with | ind n shorter => ?_
  subst n
  rcases exists_last_of_level atLeast with tight | ⟨before, o, after, rfl, level, tight⟩
  · obtain ⟨e', derived, tree⟩ := groups derives links tight
    exact ⟨e', derived.chain_of_operands, tree⟩
  · -- What is before the operator is a shorter chain, and what is behind it is one operand.
    rw [List.forall_mem_append, List.forall_mem_cons] at links atLeast
    obtain ⟨left, derivedLeft, treeLeft⟩ :=
      shorter before.length (by simp) links.1 atLeast.1 rfl
    obtain ⟨right, derivedRight, treeRight⟩ := groups links.2.1 links.2.2 tight
    have whole := derivedLeft.concat (o := ⟨o.op, _, right⟩) ⟨level, derivedRight⟩
    refine ⟨.binary o.op left right, ?_, ?_⟩
    · simpa [Operation.written] using whole
    · rw [List.map_append, List.map_cons]
      refine .split ?_ ?_ treeLeft treeRight
      · simpa [Operation.pair, level] using atLeast.1
      · simpa [Operation.pair, level] using tight

/-- **The grammar derives every chain**, with the expression that it has when it is split at its
last loosest operator. -/
theorem exists_derives_splitTree (derives : Phrase.operand.Derives ts e)
    (links : ∀ o ∈ ops, o.IsLink) :
    ∃ e', Phrase.expression.Derives (ts ++ ops.flatMap Operation.written) e' ∧
      SplitTree e (ops.map Operation.pair) e' := by
  have power : (Phrase.chain .power).Groups 2 := groups_chain groups_operand
  have product : (Phrase.chain .product).Groups 1 := groups_chain power
  have sum : Phrase.expression.Groups 0 := groups_chain product
  exact sum derives links fun _ _ => Nat.zero_le _

end Grouping

end Formula
