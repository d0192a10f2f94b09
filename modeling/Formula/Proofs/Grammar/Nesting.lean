import Mathlib.Data.List.Chain
import Mathlib.Logic.Relation
import Formula.Proofs.Grammar.Returning

/-!
# How deep calls nest

A call for an expression encloses another one only by way of a parenthesis. The inner call starts
behind an opening parenthesis that the outer one had in front of it, so each call in a chain of
nested ones has fewer of them in front of it than the one before. A text without end would be needed
for a recursion without end, whether or not its parentheses are balanced.

## Main definitions

* `Calls` — a call makes another one
* `Encloses` — a call for an expression leads to another one

## Main results

* `Encloses.suffix` — between nested calls an opening parenthesis is read
* `length_le_of_isChain` — there are no more nested calls than opening parentheses, and one
* `recursion_ends` — all of it
-/

namespace Formula

/-- The first call makes the second one. Both come with the readers they are made with. -/
inductive Calls : Call × Reader → Call × Reader → Prop
  | expression {r : Reader} : Calls (.expression, r) (.level .sum, r)
  | first {l : Level} {r : Reader} : Calls (.level l, r) (l.tighter, r)
  | operations {l : Level} {r m : Reader} {first : Expr} :
      Returns l.tighter r (some first) m → Calls (.level l, r) (.operations l first, m)
  | right {l : Level} {r : Reader} {left : Expr} {op : Operator} :
      r.next.1.operatorAt? l = some op → Calls (.operations l left, r) (l.tighter, r.next.2)
  | again {l : Level} {r m : Reader} {left right : Expr} {op : Operator} :
      r.next.1.operatorAt? l = some op → Returns l.tighter r.next.2 (some right) m →
      Calls (.operations l left, r) (.operations l (.binary op left right), m)
  | parenthesized {r : Reader} :
      r.next.1.name? = none → r.next.1.number? = none → Calls (.operand, r) (.parenthesized, r)
  | inner {r : Reader} :
      r.next.1 = .symbol .openParen → Calls (.parenthesized, r) (.expression, r.next.2)

/-- A call for an expression leads to another one within it. -/
def Encloses (r r' : Reader) : Prop :=
  Relation.TransGen Calls (.expression, r) (.expression, r')

section Nesting

variable {r r' m : Reader} {l : Level} {c c' : Call × Reader}

/-- The calls that a call makes start in its text, and not before it. -/
theorem Calls.suffix (calls : Calls c c') :
    c'.2.text = c.2.text ∧ c'.2.unread <:+ c.2.unread := by
  cases calls with
  | expression | first | parenthesized => exact ⟨rfl, List.suffix_rfl⟩
  | operations returns => exact ⟨returns.text_eq, returns.suffix⟩
  | right | inner => exact ⟨rfl, Reader.next_suffix _⟩
  | again _ returns => exact ⟨returns.text_eq, returns.suffix.trans (Reader.next_suffix _)⟩

/-- An operation that is complete takes the reader further on. -/
theorem Calls.offset_lt_offset {left left' : Expr}
    (calls : Calls (.operations l left, r) (.operations l left', m)) : r.offset < m.offset := by
  refine Reader.offset_lt_offset calls.suffix.1 ?_
  cases l <;> cases calls with
  | again operator returns =>
    have shorter := Reader.length_next_lt_of_operator operator
    have shorter' := returns.length_lt rfl rfl
    omega

/-- Only a parenthesis calls for an expression, and only behind its opening one. -/
theorem Calls.openParen (calls : Calls c (.expression, r')) :
    ∃ r, c = (.parenthesized, r) ∧ r.next.1 = .symbol .openParen ∧ r' = r.next.2 := by
  generalize there : (Call.expression, r') = c' at calls
  cases calls with
  | inner opening =>
    cases there
    exact ⟨_, rfl, opening, rfl⟩
  | @first l | @right l => cases l <;> cases there
  | _ => cases there

/-- Calls that are made within a call start in its text, and not before it. -/
theorem suffix_of_reflTransGen (calls : Relation.ReflTransGen Calls c c') :
    c'.2.text = c.2.text ∧ c'.2.unread <:+ c.2.unread := by
  induction calls with
  | refl => exact ⟨rfl, List.suffix_rfl⟩
  | tail _ step ih =>
    exact ⟨step.suffix.1.trans ih.1, step.suffix.2.trans ih.2⟩

/-- Between two nested calls for expressions an opening parenthesis is read. -/
theorem Encloses.suffix (encloses : Encloses r r') :
    r'.text = r.text ∧ '(' :: r'.unread <:+ r.unread := by
  obtain ⟨b, calls, last⟩ := Relation.TransGen.tail'_iff.mp encloses
  obtain ⟨m, rfl, opening, rfl⟩ := last.openParen
  obtain ⟨same, suffix⟩ := suffix_of_reflTransGen calls
  exact ⟨same, (Reader.openParen_suffix opening).trans suffix⟩

/-- The inner one of two nested calls starts further on. -/
theorem Encloses.offset_lt_offset (encloses : Encloses r r') : r.offset < r'.offset :=
  Reader.offset_lt_offset encloses.suffix.1 encloses.suffix.2.length_le

/-- There are no more calls nested in a call for an expression than opening parentheses. -/
theorem length_le_of_isChain {rs : List Reader} (chain : List.IsChain Encloses (r :: rs)) :
    rs.length ≤ r.openings := by
  induction rs generalizing r with
  | nil => exact Nat.zero_le _
  | cons m rs ih =>
    obtain ⟨encloses, chain⟩ := List.isChain_cons_cons.mp chain
    exact Nat.lt_of_le_of_lt (ih chain) (Reader.openings_lt encloses.suffix.2)

/-- An opening parenthesis is nested in a call for any level in front of it. -/
theorem transGen_of_openParen (l : Level) (opening : r.next.1 = .symbol .openParen) :
    Relation.TransGen Calls (.level l, r) (.expression, r.next.2) := by
  have operand : Relation.TransGen Calls (.operand, r) (.expression, r.next.2) :=
    .head (.parenthesized (by rw [opening]; rfl) (by rw [opening]; rfl)) (.single (.inner opening))
  have power : Relation.TransGen Calls (.level .power, r) _ := .head .first operand
  have product : Relation.TransGen Calls (.level .product, r) _ := .head .first power
  cases l with
  | sum => exact .head .first product
  | product => exact product
  | power => exact power

/-- An expression behind an opening parenthesis is nested in one in front of it. -/
theorem encloses_of_openParen (opening : r.next.1 = .symbol .openParen) : Encloses r r.next.2 :=
  .head .expression (transGen_of_openParen .sum opening)

/-- **Recursion ends.** Every call of a rule returns, wherever it is made, and in one way; that is
what the rules give, also with any bounds that leave room for the characters and the opening
parentheses that are unread. Rules that find something take the reader further on, and so does each
operation of a chain that is complete. Only parentheses call for an expression again, further on
and right behind their opening one, and they do. So no chain of nested expressions is longer than
the number of opening parentheses and one. -/
theorem recursion_ends :
    (∀ call r, ∃! returned : Option Expr × Reader, Returns call r returned.1 returned.2) ∧
    (∀ r result r', Rule.statement r = (result, r') ↔ StatementReturns r result r') ∧
    (∀ r result r', Rule.assignment r = (result, r') ↔ AssignmentReturns r result r') ∧
    (∀ r result r', Rule.expression r = (result, r') ↔ Returns .expression r result r') ∧
    (∀ (r : Reader) steps depth, r.unread.length ≤ steps → r.openings ≤ depth →
      ∀ (call : Call) result r',
        call.rule steps depth r = (result, r') ↔ Returns call r result r') ∧
    (∀ r statement r', StatementReturns r (some statement) r' → r.offset < r'.offset) ∧
    (∀ r statement r', AssignmentReturns r (some statement) r' → r.offset < r'.offset) ∧
    (∀ call r e r', call.isWhole = true → Returns call r (some e) r' → r.offset < r'.offset) ∧
    (∀ l left left' r m, Calls (.operations l left, r) (.operations l left', m) →
      r.offset < m.offset) ∧
    (∀ c r', Calls c (.expression, r') → ∃ r, c = (.parenthesized, r) ∧
      r.next.1 = .symbol .openParen ∧ r' = r.next.2 ∧ r.offset < r'.offset) ∧
    (∀ r : Reader, r.next.1 = .symbol .openParen → Encloses r r.next.2) ∧
    (∀ r r', Encloses r r' → r.offset < r'.offset) ∧
    (∀ r rs, List.IsChain Encloses (r :: rs) → (r :: rs).length ≤ 1 + r.openings) ∧
    ∀ r : Reader, r.openings ≤ r.text.count '(' := by
  refine ⟨fun call r => ?_, fun r result r' => statement_eq_iff,
    fun r result r' => assignment_eq_iff, fun r result r' => expression_eq_iff,
    fun r steps depth short few call result r' => call.rule_eq_iff short few,
    fun r statement r' => StatementReturns.offset_lt_offset,
    fun r statement r' => AssignmentReturns.offset_lt_offset,
    fun call r e r' whole returns => returns.offset_lt_offset whole,
    fun l left left' r m => Calls.offset_lt_offset, fun c r' calls => ?_,
    fun r => encloses_of_openParen, fun r r' => Encloses.offset_lt_offset, fun r rs chain => ?_,
    fun r => r.unread_suffix.sublist.count_le _⟩
  · obtain ⟨result, r', returns⟩ := exists_returns call r
    refine ⟨(result, r'), returns, fun other again => ?_⟩
    obtain ⟨same, here⟩ := again.unique returns
    exact Prod.ext same here
  · obtain ⟨r, rfl, opening, rfl⟩ := calls.openParen
    exact ⟨r, rfl, opening, rfl, r.offset_lt_offset_next (by rw [opening]; rfl)⟩
  · rw [List.length_cons, Nat.add_comm]
    exact Nat.add_le_add_left (length_le_of_isChain chain) 1

/-- Three parentheses that are not closed, and an operator without its second operand: four calls
for expressions are nested, which is as deep as it goes, and the outermost one returns nothing. -/
theorem recursion_ends_unclosed :
    let r := Reader.ofString "((1+(2*"
    let nested := [r.advance 0, r.advance 1, r.advance 2, r.advance 5]
    let one : Expr := .number (.ofRatio 1 1)
    let two : Expr := .number (.ofRatio 2 1)
    List.IsChain Encloses nested ∧ nested.length = 1 + r.openings ∧
    r.unread.length ≤ 7 ∧ r.openings ≤ 3 ∧ Returns .expression r none r ∧
    Rule.expression r = (none, r) ∧ Rule.expressionWithin 7 4 r = (none, r) ∧
    Returns (.level .product) (r.advance 2) (some one) (r.advance 3) ∧
    (Rule.expression (r.advance 5)).1 = some two ∧
    (r.advance 5).offset < (Rule.expression (r.advance 5)).2.offset := by
  intro r nested one two
  obtain ⟨-, -, -, expression, within, -, -, further, -⟩ := recursion_ends
  have fails {m : Reader} (nothing : (Rule.expression m).1 = none) :
      Rule.expression m = (none, m) :=
    Prod.ext nothing (neutral_expression m _ (Prod.ext nothing rfl))
  have goesOn {m : Reader} {e : Expr} (found : (Rule.expression m).1 = some e) :
      m.offset < (Rule.expression m).2.offset :=
    further .expression m e _ rfl ((expression m _ _).mp (Prod.ext found rfl))
  have failed : Rule.expression r = (none, r) := fails (by decide +kernel)
  have short : r.unread.length ≤ 7 := by decide +kernel
  have few : r.openings ≤ 3 := by decide +kernel
  have returns := (expression r none r).mp failed
  have first : Returns (.level .product) (r.advance 2) (some one) (r.advance 3) :=
    (within (r.advance 2) 7 3 (by decide +kernel) (by decide +kernel) (.level .product) _ _).mp
      (Prod.ext (by decide +kernel) (Reader.ext_offset (by decide +kernel) (by decide +kernel)))
  have plus : (r.advance 3).next.1.operatorAt? .sum = some .add := by decide +kernel
  have third : Encloses (r.advance 2) (r.advance 5) := by
    rw [Reader.advance_succ r 4, Reader.advance_succ r 3]
    -- The left operand of the operator is returned first, and then its right operand is called for.
    exact .head .expression (.head (.operations first)
      (.head (.right plus) (transGen_of_openParen .product (by decide +kernel))))
  have opened {n : Nat} (opening : (r.advance n).next.1 = .symbol .openParen) :
      Encloses (r.advance n) (r.advance (n + 1)) := by
    rw [Reader.advance_succ]
    exact encloses_of_openParen opening
  have chain : List.IsChain Encloses nested :=
    .cons_cons (opened (n := 0) (by decide +kernel))
      (.cons_cons (opened (by decide +kernel)) (.cons_cons third (.singleton _)))
  have found : (Rule.expression (r.advance 5)).1 = some two := by decide +kernel
  exact ⟨chain, by decide +kernel, short, few, returns, failed,
    (within r 7 3 short few .expression none r).mpr returns, first, found, goesOn found⟩

end Nesting

end Formula
