import Formula.Proofs.Grammar.Scripts
import Formula.Proofs.Reader.Progress

/-!
# What the rules of expressions return

The rules of expressions call each other: an expression calls the loosest level, each level calls
the next tighter one for its operands, and between parentheses there is an expression again. What a
call returns, and where, is said here by a relation that follows these calls and knows no bound, so
a call that never ended would return nothing.

## Main definitions

* `Call` — the calls that the rules make of each other
* `Returns` — what a call returns, and where

## Main results

* `Returns.suffix` — a call goes on in its text, and never back
* `Returns.length_lt` — a call that finds something takes characters
* `Returns.unique` — a call returns in one way only
-/

namespace Formula

/-- The calls that the rules of expressions make of each other. -/
inductive Call where
  | expression
  | level (l : Level)
  /-- The operations of a level, behind what has been read of it. -/
  | operations (l : Level) (left : Expr)
  | operand
  | parenthesized

/-- The call for an operand of a level. -/
def Level.tighter : Level → Call
  | sum => .level .product
  | product => .level .power
  | power => .operand

/-- Is the call one for an expression, or for a part of one that can stand alone? -/
def Call.isWhole : Call → Bool
  | operations .. => false
  | _ => true

@[simp] theorem Level.isWhole_tighter (l : Level) : l.tighter.isWhole = true := by
  cases l <;> rfl

/-- What a call returns, and where it leaves the reader. An attempt that fails leaves it where the
attempt began. -/
inductive Returns : Call → Reader → Option Expr → Reader → Prop
  | expression {r r' : Reader} {result : Option Expr} :
      Returns (.level .sum) r result r' → Returns .expression r result r'
  | noOperand {l : Level} {r m : Reader} :
      Returns l.tighter r none m → Returns (.level l) r none r
  | level {l : Level} {r m r' : Reader} {first : Expr} {result : Option Expr} :
      Returns l.tighter r (some first) m → Returns (.operations l first) m result r' →
      Returns (.level l) r result r'
  | noOperator {l : Level} {r : Reader} {left : Expr} :
      r.next.1.operatorAt? l = none → Returns (.operations l left) r (some left) r
  | noRight {l : Level} {r m : Reader} {left : Expr} {op : Operator} :
      r.next.1.operatorAt? l = some op → Returns l.tighter r.next.2 none m →
      Returns (.operations l left) r (some left) r
  | operation {l : Level} {r m r' : Reader} {left right : Expr} {op : Operator}
      {result : Option Expr} :
      r.next.1.operatorAt? l = some op → Returns l.tighter r.next.2 (some right) m →
      Returns (.operations l (.binary op left right)) m result r' →
      Returns (.operations l left) r result r'
  | name {r : Reader} {text : String} :
      r.next.1 = .name text → Returns .operand r (some (.name text)) r.next.2
  | number {r : Reader} {value : Double} :
      r.next.1 = .number value → Returns .operand r (some (.number value)) r.next.2
  | other {r r' : Reader} {result : Option Expr} :
      r.next.1.name? = none → r.next.1.number? = none → Returns .parenthesized r result r' →
      Returns .operand r result r'
  | unopened {r : Reader} :
      r.next.1 ≠ .symbol .openParen → Returns .parenthesized r none r
  | empty {r m : Reader} :
      r.next.1 = .symbol .openParen → Returns .expression r.next.2 none m →
      Returns .parenthesized r none r
  | unclosed {r m : Reader} {e : Expr} :
      r.next.1 = .symbol .openParen → Returns .expression r.next.2 (some e) m →
      m.next.1 ≠ .symbol .closeParen → Returns .parenthesized r none r
  | closed {r m : Reader} {e : Expr} :
      r.next.1 = .symbol .openParen → Returns .expression r.next.2 (some e) m →
      m.next.1 = .symbol .closeParen → Returns .parenthesized r (some e) m.next.2

section Returns

variable {call : Call} {r r' r'' : Reader} {result result' : Option Expr} {l : Level} {e : Expr}

/-! ### Where calls lead -/

/-- A token that is no stop takes a character at least. -/
theorem Reader.length_next_lt {t : Token} (next : r.next.1 = t) (goesOn : t.isStop = false) :
    r.next.2.unread.length < r.unread.length := by
  subst next
  exact length_scan_lt goesOn

/-- An operator takes a character. -/
theorem Reader.length_next_lt_of_operator {op : Operator}
    (operator : r.next.1.operatorAt? l = some op) :
    r.next.2.unread.length < r.unread.length :=
  length_next_lt (Token.operatorAt?_eq_some_iff.mp operator).1 rfl

/-- What a call takes is a list of tokens. -/
theorem Returns.exists_reads (returns : Returns call r result r') : ∃ ts, Reads r ts r' := by
  induction returns with
  | expression _ ih => exact ih
  | noOperand | noOperator | noRight | unopened | empty | unclosed => exact ⟨[], .nil _⟩
  | level _ _ first rest =>
    obtain ⟨⟨ts, first⟩, ⟨us, rest⟩⟩ := And.intro first rest
    exact ⟨ts ++ us, first.append rest⟩
  | operation operator _ _ right rest =>
    obtain ⟨⟨ts, right⟩, ⟨us, rest⟩⟩ := And.intro right rest
    have next := (Token.operatorAt?_eq_some_iff.mp operator).1
    exact ⟨_ :: (ts ++ us), .cons (Prod.ext next rfl) rfl (right.append rest)⟩
  | name next | number next => exact ⟨[_], .single (Prod.ext next rfl) rfl⟩
  | other _ _ _ ih => exact ih
  | closed opening _ closing inner =>
    obtain ⟨ts, inner⟩ := inner
    have closed := inner.append (.single (Prod.ext closing rfl) rfl)
    exact ⟨_ :: (ts ++ [_]), .cons (Prod.ext opening rfl) rfl closed⟩

/-- A call stays in its text. -/
theorem Returns.text_eq (returns : Returns call r result r') : r'.text = r.text := by
  obtain ⟨ts, reads⟩ := returns.exists_reads
  exact (reads_iff_lexes.mp reads).1.symm

/-- What a call leaves is an end piece of what it finds. -/
theorem Returns.suffix (returns : Returns call r result r') : r'.unread <:+ r.unread := by
  obtain ⟨ts, reads⟩ := returns.exists_reads
  exact (reads_iff_lexes.mp reads).2.suffix

/-- A call that finds an expression takes characters. Only a call for operations may find none and
return what was in front of them. -/
theorem Returns.length_lt (returns : Returns call r result r') (whole : call.isWhole = true)
    (found : result.isSome = true) : r'.unread.length < r.unread.length := by
  induction returns with
  | expression _ ih => exact ih rfl found
  | noOperand | unopened | empty | unclosed => cases found
  | level _ operations first _ =>
    exact Nat.lt_of_le_of_lt operations.suffix.length_le (first (Level.isWhole_tighter _) rfl)
  | noOperator | noRight | operation => cases whole
  | name next | number next => exact Reader.length_next_lt next rfl
  | other _ _ _ ih => exact ih rfl found
  | closed opening _ closing inner =>
    have opened := Reader.length_next_lt opening rfl
    have closed := Reader.length_next_lt closing rfl
    have inside := inner rfl rfl
    omega

/-- A call that finds an expression takes the reader further on. -/
theorem Returns.offset_lt_offset (returns : Returns call r (some e) r')
    (whole : call.isWhole = true) : r.offset < r'.offset :=
  Reader.offset_lt_offset returns.text_eq (returns.length_lt whole rfl)

/-- A call returns in one way only. -/
theorem Returns.unique (first : Returns call r result r') (second : Returns call r result' r'') :
    result = result' ∧ r' = r'' := by
  induction first generalizing result' r'' with
  | expression _ ih =>
    cases second with
    | expression again => exact ih again
  | noOperand _ ih =>
    cases second with
    | noOperand _ => exact ⟨rfl, rfl⟩
    | level again _ => cases (ih again).1
  | level _ _ ihFirst ihRest =>
    cases second with
    | noOperand again => cases (ihFirst again).1
    | level again rest =>
      obtain ⟨same, rfl⟩ := ihFirst again
      cases same
      exact ihRest rest
  | noOperator none => cases second <;> simp_all
  | noRight operator _ ih =>
    cases second with
    | noOperator _ => exact ⟨rfl, rfl⟩
    | noRight _ _ => exact ⟨rfl, rfl⟩
    | operation again right _ =>
      cases operator.symm.trans again
      cases (ih right).1
  | operation operator _ _ ihRight ihRest =>
    cases second with
    | noOperator none => cases none.symm.trans operator
    | noRight again right =>
      cases operator.symm.trans again
      cases (ihRight right).1
    | operation again right rest =>
      cases operator.symm.trans again
      obtain ⟨same, rfl⟩ := ihRight right
      cases same
      exact ihRest rest
  | name next | number next => cases second <;> simp_all [Token.name?, Token.number?]
  | other noName noNumber _ ih =>
    cases second with
    | name next => cases (next ▸ noName : Token.name? (.name _) = none)
    | number next => cases (next ▸ noNumber : Token.number? (.number _) = none)
    | other _ _ again => exact ih again
  | unopened not =>
    cases second with
    | unopened _ | empty _ _ | unclosed _ _ _ => exact ⟨rfl, rfl⟩
    | closed opening _ _ => exact absurd opening not
  | empty opening _ ih =>
    cases second with
    | unopened _ | empty _ _ | unclosed _ _ _ => exact ⟨rfl, rfl⟩
    | closed _ inner _ => cases (ih inner).1
  | unclosed opening _ not ih =>
    cases second with
    | unopened _ | empty _ _ | unclosed _ _ _ => exact ⟨rfl, rfl⟩
    | closed _ inner closing =>
      obtain ⟨-, rfl⟩ := ih inner
      exact absurd closing not
  | closed opening _ closing ih =>
    cases second with
    | unopened not => exact absurd opening not
    | empty _ inner => cases (ih inner).1
    | unclosed _ inner not =>
      obtain ⟨-, rfl⟩ := ih inner
      exact absurd closing not
    | closed _ inner _ =>
      obtain ⟨same, rfl⟩ := ih inner
      cases same
      exact ⟨rfl, rfl⟩

end Returns

end Formula
