import Formula.Proofs.Grammar.Calls

/-!
# Rules give what calls return

The rules of expressions stop at a bound on operations and at another on nested parentheses. An
operation takes a character and a nested parenthesis an opening one, so if the bounds leave room
for all characters and for all opening parentheses, neither of them is ever reached, and a rule
gives what its call returns. So every call returns. It follows for assignments and statements, which
call for expressions only once each.

## Main definitions

* `Call.rule` — the rule of a call, within bounds
* `Rule.Gives` — a rule gives what a call returns, as far as bounds go
* `AssignmentReturns`, `StatementReturns` — what calls for assignments and statements return

## Main results

* `Call.rule_eq_iff` — within large enough bounds a rule gives what its call returns
* `exists_returns` — every call returns
* `expression_eq_iff`, `assignment_eq_iff`, `statement_eq_iff` — so do the rules without bounds
-/

namespace Formula

/-! ### Expressions -/

/-- The opening parentheses that are unread. -/
def Reader.openings (r : Reader) : Nat := r.unread.count '('

/-- The rule for an operand of a level. -/
def Rule.tighter (steps : Nat) (inner : Rule Reader Expr) : Level → Rule Reader Expr
  | .sum => chain steps inner .product
  | .product => chain steps inner .power
  | .power => operand inner

/-- The rule of a call, for at most `steps` operations in a row and for parentheses nested at most
`depth` deep. -/
def Call.rule (steps depth : Nat) : Call → Rule Reader Expr
  | expression => Rule.expressionWithin steps (depth + 1)
  | level l => Rule.chain steps (Rule.expressionWithin steps depth) l
  | operations l left => fun r =>
    let tighter := Rule.tighter steps (Rule.expressionWithin steps depth) l
    let (chain, r') := Rule.many (Rule.operation l tighter) steps r
    (some (Rule.foldChain left chain), r')
  | operand => Rule.operand (Rule.expressionWithin steps depth)
  | parenthesized => Rule.parenthesized (Rule.expressionWithin steps depth)

/-- The rule gives what the call returns, from readers with no more than `steps` characters in front
of them and less than `openings` opening parentheses among these. -/
def Rule.Gives (rule : Rule Reader Expr) (call : Call) (steps openings : Nat) : Prop :=
  ∀ ⦃r : Reader⦄, r.unread.length ≤ steps → r.openings < openings →
    Returns call r (rule r).1 (rule r).2

section Gives

variable {call : Call} {r r' : Reader} {l : Level} {steps openings : Nat}
variable {rule inner tighter : Rule Reader Expr}

namespace Reader

theorem next_suffix (r : Reader) : r.next.2.unread <:+ r.unread := scan_suffix r.unread

/-- An opening parenthesis that is read stands in front of what is left. -/
theorem openParen_suffix (opening : r.next.1 = .symbol .openParen) :
    '(' :: r.next.2.unread <:+ r.unread := by
  obtain ⟨blanks, l, text, -, lexeme, -⟩ :=
    exists_lexeme_of_scan (Prod.ext opening rfl : scan r.unread = (_, r.next.2.unread)) rfl
  cases lexeme
  rw [text]
  exact List.suffix_append _ _

/-- Further on there are no more opening parentheses than before. -/
theorem openings_le (suffix : r'.unread <:+ r.unread) : r'.openings ≤ r.openings :=
  suffix.sublist.count_le _

/-- Behind an opening parenthesis there is one less at least. -/
theorem openings_lt (suffix : '(' :: r'.unread <:+ r.unread) : r'.openings < r.openings := by
  have less := suffix.sublist.count_le '('
  rwa [List.count_cons_self] at less

end Reader

namespace Rule

/-- What a rule gives from a reader it gives from any place further on as well. -/
theorem Gives.later (gives : rule.Gives call steps openings) (short : r.unread.length ≤ steps)
    (few : r.openings < openings) (suffix : r'.unread <:+ r.unread) :
    Returns call r' (rule r').1 (rule r').2 :=
  gives (Nat.le_trans suffix.length_le short) (Nat.lt_of_le_of_lt (Reader.openings_le suffix) few)

/-- Where the rule of an operation fails, the call for operations ends. -/
theorem Gives.returns_of_none (gives : tighter.Gives l.tighter steps openings)
    (short : r.unread.length ≤ steps) (few : r.openings < openings)
    (failed : (operation l tighter r).1 = none) (left : Expr) :
    Returns (.operations l left) r (some left) r := by
  rcases operator : r.next.1.operatorAt? l with _ | op
  · exact .noOperator operator
  · have right := gives.later short few r.next_suffix
    rcases given : tighter r.next.2 with ⟨_ | e, m⟩ <;> rw [given] at right
    · exact .noRight operator right
    · obtain ⟨next, same⟩ := Token.operatorAt?_eq_some_iff.mp operator
      rw [operation_eq_some_iff.mpr ⟨_, Prod.ext next rfl, same, given⟩] at failed
      cases failed

/-- Operations are read as the call for them returns. Each of them takes a character, so the
characters run out before a limit on their number is reached. -/
theorem Gives.returns_operations (gives : tighter.Gives l.tighter steps openings)
    (stays : tighter.Stays) {limit : Nat} (enough : r.unread.length ≤ limit)
    (short : r.unread.length ≤ steps) (few : r.openings < openings) (left : Expr) :
    Returns (.operations l left) r (some (foldChain left (many (operation l tighter) limit r).1))
      (many (operation l tighter) limit r).2 := by
  induction limit generalizing r left with
  | zero =>
    refine .noOperator (Option.eq_none_iff_forall_ne_some.mpr fun op operator => ?_)
    have shorter := Reader.length_next_lt_of_operator operator
    omega
  | succ limit ih =>
    rcases h : operation l tighter r with ⟨_ | ⟨op, e⟩, m⟩
    · obtain rfl := neutral_operation stays r m h
      rw [many_succ_of_none h]
      exact gives.returns_of_none short few (congrArg Prod.fst h) left
    · rw [many_succ_of_some h]
      obtain ⟨m', next, same, given⟩ := operation_eq_some_iff.mp h
      obtain ⟨operator, rfl⟩ := Reader.next_eq_iff.mp next
      have right := gives.later short few r.next_suffix
      rw [given] at right
      have operator := Token.operatorAt?_eq_some_iff.mpr ⟨operator, same⟩
      have shorter := Reader.length_next_lt_of_operator operator
      have shorter' := right.length_lt (Level.isWhole_tighter l) rfl
      have fewer := Reader.openings_le (right.suffix.trans r.next_suffix)
      exact .operation operator right (ih (by omega) (by omega) (by omega) _)

/-- A level gives what its call returns if the rule for its operands does. -/
theorem Gives.level (gives : tighter.Gives l.tighter steps openings) (stays : tighter.Stays) :
    (level l steps tighter).Gives (.level l) steps openings := by
  intro r short few
  have first := gives short few
  rcases given : tighter r with ⟨_ | e, m⟩ <;> rw [given] at first
  · have failed : Rule.level l steps tighter r = (none, r) :=
      (neutral_level stays steps).eq_none fun e m' found => by
        obtain ⟨first, m'', chain, found, -⟩ := level_eq_some_iff.mp found
        rw [given] at found
        cases (Prod.mk.inj found).1
    rw [failed]
    exact .noOperand first
  · rw [level_eq_some_iff.mpr ⟨e, m, _, given, rfl, rfl⟩]
    have shorter := Nat.le_trans first.suffix.length_le short
    have fewer := Nat.lt_of_le_of_lt (Reader.openings_le first.suffix) few
    exact .level first (gives.returns_operations stays shorter shorter fewer e)

/-- A parenthesis gives what its call returns, with one more parenthesis than within. -/
theorem Gives.parenthesized (gives : inner.Gives .expression steps openings)
    (stays : inner.Stays) :
    (parenthesized inner).Gives .parenthesized steps (openings + 1) := by
  intro r short few
  rcases h : Rule.parenthesized inner r with ⟨_ | e, m⟩
  · have here := neutral_parenthesized stays r m h
    subst m
    by_cases opening : r.next.1 = .symbol .openParen
    · have fewer := Reader.openings_lt (Reader.openParen_suffix opening)
      have inside := gives (Nat.le_trans r.next_suffix.length_le short) (by omega)
      rcases given : inner r.next.2 with ⟨_ | e, m⟩ <;> rw [given] at inside
      · exact .empty opening inside
      · refine .unclosed opening inside fun closing => ?_
        rw [parenthesized_eq_some_iff.mpr
          ⟨_, m, Prod.ext opening rfl, given, Prod.ext closing rfl⟩] at h
        cases (Prod.mk.inj h).1
    · exact .unopened opening
  · obtain ⟨m', m'', opening, given, closing⟩ := parenthesized_eq_some_iff.mp h
    obtain ⟨opened, rfl⟩ := Reader.next_eq_iff.mp opening
    obtain ⟨closed, rfl⟩ := Reader.next_eq_iff.mp closing
    have fewer := Reader.openings_lt (Reader.openParen_suffix opened)
    have inside := gives (Nat.le_trans r.next_suffix.length_le short) (by omega)
    rw [given] at inside
    exact .closed opened inside closed

/-- What is no name and no number is read as a parenthesis. -/
theorem operand_eq_parenthesized (noName : r.next.1.name? = none)
    (noNumber : r.next.1.number? = none) : operand inner r = parenthesized inner r := by
  have name : name r = (none, r) := neutral_name.eq_none fun e m found => by
    obtain ⟨text, next, -⟩ := name_eq_some_iff.mp found
    rw [(Reader.next_eq_iff.mp next).1] at noName
    cases noName
  have number : number r = (none, r) := neutral_number.eq_none fun e m found => by
    obtain ⟨value, next, -⟩ := number_eq_some_iff.mp found
    rw [(Reader.next_eq_iff.mp next).1] at noNumber
    cases noNumber
  rw [operand, orElse_of_none ((orElse_of_none name).trans number)]

/-- An operand gives what its call returns if a parenthesis does. -/
theorem Gives.operand (gives : (Rule.parenthesized inner).Gives .parenthesized steps openings) :
    (operand inner).Gives .operand steps openings := by
  intro r short few
  rcases noName : r.next.1.name? with _ | text
  · rcases noNumber : r.next.1.number? with _ | value
    · rw [operand_eq_parenthesized noName noNumber]
      exact .other noName noNumber (gives short few)
    · have next := Token.number?_eq_some_iff.mp noNumber
      have given := number_eq_some_iff.mpr ⟨value, Prod.ext next rfl, rfl⟩
      rw [operand_eq_some_iff.mpr (Or.inr (Or.inl given))]
      exact .number next
  · have next := Token.name?_eq_some_iff.mp noName
    have given := name_eq_some_iff.mpr ⟨text, Prod.ext next rfl, rfl⟩
    rw [operand_eq_some_iff.mpr (Or.inl given)]
    exact .name next

variable (steps : Nat)

theorem stays_expressionWithin (depth : Nat) :
    (expressionWithin steps depth : Rule Reader Expr).Stays :=
  (follows_expressionWithin_zero steps depth).stays

theorem stays_tighter (depth : Nat) (l : Level) :
    (Rule.tighter steps (expressionWithin steps depth) l).Stays := by
  have follows : Follows .expression 0 (expressionWithin steps depth : Rule Reader Expr) :=
    follows_expressionWithin_zero steps depth
  cases l with
  | sum => exact (follows_chain follows (Nat.zero_le steps) .product).stays
  | product => exact (follows_chain follows (Nat.zero_le steps) .power).stays
  | power => exact (follows_operand follows).stays

/-- A level is built from the rule for its operands. -/
theorem chain_eq_level (inner : Rule Reader Expr) (l : Level) :
    chain steps inner l = level l steps (Rule.tighter steps inner l) := by
  cases l <;> rfl

/-- The rules for the operands of levels give what their calls return. -/
theorem gives_tighter {depth : Nat}
    (gives : (expressionWithin steps depth).Gives .expression steps depth) (l : Level) :
    (Rule.tighter steps (expressionWithin steps depth) l).Gives l.tighter steps (depth + 1) := by
  have operand := Gives.operand (gives.parenthesized (stays_expressionWithin steps depth))
  have power := Gives.level (l := .power) operand (stays_tighter steps depth .power)
  have product := Gives.level (l := .product) power (stays_tighter steps depth .product)
  cases l with
  | sum => exact product
  | product => exact power
  | power => exact operand

/-- Within their bounds, the rules of expressions give what the calls return. -/
theorem gives_expressionWithin (depth : Nat) :
    (expressionWithin steps depth).Gives .expression steps depth := by
  induction depth with
  | zero => exact fun _ _ few => absurd few (Nat.not_lt_zero _)
  | succ depth ih =>
    have sum := (gives_tighter steps ih .sum).level (stays_tighter steps depth .sum)
    exact fun _ short few => .expression (sum short few)

end Rule

/-- Rules give what calls return, if their bounds leave room for all characters and for all opening
parentheses. -/
theorem Call.returns_rule {depth : Nat} (call : Call) (short : r.unread.length ≤ steps)
    (few : r.openings ≤ depth) :
    Returns call r (call.rule steps depth r).1 (call.rule steps depth r).2 := by
  have few := Nat.lt_succ_of_le few
  have inner := Rule.gives_expressionWithin steps depth
  have tighter (l : Level) := Rule.gives_tighter steps inner l
  cases call with
  | expression => exact Rule.gives_expressionWithin steps (depth + 1) short few
  | level l =>
    have level := (tighter l).level (Rule.stays_tighter steps depth l)
    rw [Call.rule, Rule.chain_eq_level]
    exact level short few
  | operations l left =>
    exact (tighter l).returns_operations (Rule.stays_tighter steps depth l) short short few left
  | operand => exact tighter .power short few
  | parenthesized => exact inner.parenthesized (Rule.stays_expressionWithin steps depth) short few

end Gives

section Totality

variable {r r' : Reader} {result : Option Expr} {steps depth : Nat}

/-- What is so, and is so in one way only, is all that a rule gives. -/
theorem eq_iff_of_unique {α : Type} {R : α → Reader → Prop} {given : α × Reader} {a : α}
    (holds : R given.1 given.2)
    (unique : ∀ {a b : α} {r r' : Reader}, R a r → R b r' → a = b ∧ r = r') :
    given = (a, r) ↔ R a r := by
  constructor
  · rintro rfl
    exact holds
  · intro other
    obtain ⟨same, here⟩ := unique holds other
    exact Prod.ext same here

/-- With such bounds a rule gives what its call returns, and nothing else. -/
theorem Call.rule_eq_iff (call : Call) (short : r.unread.length ≤ steps)
    (few : r.openings ≤ depth) :
    call.rule steps depth r = (result, r') ↔ Returns call r result r' :=
  eq_iff_of_unique (call.returns_rule short few) Returns.unique

/-- Every call returns, wherever it is made. -/
theorem exists_returns (call : Call) (r : Reader) : ∃ result r', Returns call r result r' :=
  ⟨_, _, call.returns_rule (Nat.le_refl _) (Nat.le_refl _)⟩

theorem Reader.openings_le_length (r : Reader) : r.openings ≤ r.unread.length :=
  List.count_le_length

/-- The rule of expressions gives what a call for an expression returns. -/
theorem expression_eq_iff : Rule.expression r = (result, r') ↔ Returns .expression r result r' :=
  Call.expression.rule_eq_iff (Nat.le_refl r.unread.length) r.openings_le_length

end Totality

/-! ### Assignments and statements -/

/-- What a call for an assignment returns, and where it leaves the reader. -/
inductive AssignmentReturns : Reader → Option Statement → Reader → Prop
  | noTarget {r : Reader} : r.next.1.name? = none → AssignmentReturns r none r
  | noEquals {r : Reader} {target : String} :
      r.next.1 = .name target → r.next.2.next.1 ≠ .symbol .equals → AssignmentReturns r none r
  | noValue {r m : Reader} {target : String} :
      r.next.1 = .name target → r.next.2.next.1 = .symbol .equals →
      Returns .expression r.next.2.next.2 none m → AssignmentReturns r none r
  | assignment {r r' : Reader} {target : String} {e : Expr} :
      r.next.1 = .name target → r.next.2.next.1 = .symbol .equals →
      Returns .expression r.next.2.next.2 (some e) r' →
      AssignmentReturns r (some (.assignment target e)) r'

/-- What a call for a statement returns, and where it leaves the reader. -/
inductive StatementReturns : Reader → Option Statement → Reader → Prop
  | assignment {r r' : Reader} {statement : Statement} :
      AssignmentReturns r (some statement) r' → StatementReturns r (some statement) r'
  | expression {r m r' : Reader} {result : Option Expr} :
      AssignmentReturns r none m → Returns .expression m result r' →
      StatementReturns r (result.map .expression) r'

section Statements

variable {r r' r'' : Reader} {result result' : Option Statement}

/-- The rule of assignments gives what a call for an assignment returns. -/
theorem assignmentReturns_rule (r : Reader) :
    AssignmentReturns r (Rule.assignment r).1 (Rule.assignment r).2 := by
  rcases h : Rule.assignment r with ⟨_ | statement, r'⟩
  · have here := neutral_assignment r r' h
    subst r'
    rcases name : r.next.1.name? with _ | target
    · exact .noTarget name
    have name := Token.name?_eq_some_iff.mp name
    by_cases equals : r.next.2.next.1 = .symbol .equals
    · rcases given : Rule.expression r.next.2.next.2 with ⟨_ | e, m⟩
      · exact .noValue name equals (expression_eq_iff.mp given)
      · rw [assignment_eq_some_iff.mpr
          ⟨target, _, _, e, Prod.ext name rfl, Prod.ext equals rfl, given, rfl⟩] at h
        cases (Prod.mk.inj h).1
    · exact .noEquals name equals
  · obtain ⟨target, m, m', e, name, equals, given, rfl⟩ := assignment_eq_some_iff.mp h
    obtain ⟨named, rfl⟩ := Reader.next_eq_iff.mp name
    obtain ⟨equal, rfl⟩ := Reader.next_eq_iff.mp equals
    exact .assignment named equal (expression_eq_iff.mp given)

/-- A call for an assignment returns in one way only. -/
theorem AssignmentReturns.unique (first : AssignmentReturns r result r')
    (second : AssignmentReturns r result' r'') : result = result' ∧ r' = r'' := by
  cases first with
  | noTarget not => cases second <;> simp_all [Token.name?]
  | noEquals _ not => cases second <;> simp_all
  | noValue _ _ none =>
    cases second with
    | noTarget | noEquals | noValue => exact ⟨rfl, rfl⟩
    | assignment _ _ some => cases (none.unique some).1
  | assignment name equals some =>
    cases second with
    | noTarget not =>
      rw [name] at not
      cases not
    | noEquals _ not => exact absurd equals not
    | noValue _ _ none => cases (some.unique none).1
    | assignment again _ more =>
      cases name.symm.trans again
      obtain ⟨same, rfl⟩ := some.unique more
      cases same
      exact ⟨rfl, rfl⟩

/-- The rule of assignments gives what a call for an assignment returns, and nothing else. -/
theorem assignment_eq_iff :
    Rule.assignment r = (result, r') ↔ AssignmentReturns r result r' :=
  eq_iff_of_unique (assignmentReturns_rule r) AssignmentReturns.unique

/-- The rule of statements gives what a call for a statement returns. -/
theorem statementReturns_rule (r : Reader) :
    StatementReturns r (Rule.statement r).1 (Rule.statement r).2 := by
  have assignment := assignmentReturns_rule r
  rcases given : Rule.assignment r with ⟨_ | statement, m⟩ <;> rw [given] at assignment
  · rw [Rule.statement, Rule.orElse_of_none given]
    rcases h : Rule.expression m with ⟨_ | e, r'⟩
    · rw [Rule.bind_of_none h]
      exact .expression assignment (expression_eq_iff.mp h)
    · rw [Rule.bind_of_some h]
      exact .expression assignment (expression_eq_iff.mp h)
  · rw [Rule.statement, Rule.orElse_of_some given]
    exact .assignment assignment

/-- A call for a statement returns in one way only. -/
theorem StatementReturns.unique (first : StatementReturns r result r')
    (second : StatementReturns r result' r'') : result = result' ∧ r' = r'' := by
  cases first with
  | assignment some =>
    cases second with
    | assignment again => exact some.unique again
    | expression none _ => cases (some.unique none).1
  | expression none returns =>
    cases second with
    | assignment some => cases (none.unique some).1
    | expression again returns' =>
      obtain ⟨-, rfl⟩ := none.unique again
      obtain ⟨rfl, rfl⟩ := returns.unique returns'
      exact ⟨rfl, rfl⟩

/-- The rule of statements gives what a call for a statement returns, and nothing else. -/
theorem statement_eq_iff :
    Rule.statement r = (result, r') ↔ StatementReturns r result r' :=
  eq_iff_of_unique (statementReturns_rule r) StatementReturns.unique

/-- An assignment takes characters. -/
theorem AssignmentReturns.offset_lt_offset {statement : Statement}
    (returns : AssignmentReturns r (some statement) r') : r.offset < r'.offset := by
  cases returns with
  | assignment name _ returns =>
    refine Reader.offset_lt_offset returns.text_eq ?_
    have shorter := Reader.length_next_lt name rfl
    have rest := (returns.suffix.trans (Reader.next_suffix _)).length_le
    omega

/-- A statement takes characters. -/
theorem StatementReturns.offset_lt_offset {statement : Statement}
    (returns : StatementReturns r (some statement) r') : r.offset < r'.offset := by
  generalize given : some statement = result at returns
  cases returns with
  | assignment returns => exact returns.offset_lt_offset
  | @expression m _ result none returns =>
    obtain ⟨e, rfl, -⟩ := Option.map_eq_some_iff.mp given.symm
    obtain rfl := neutral_assignment r m (assignment_eq_iff.mpr none)
    exact returns.offset_lt_offset rfl

end Statements

end Formula
