import Formula.Proofs.Grammar.Chains

/-!
# Expressions told by counting

Whether some tokens are an expression, though not which one, can be told without levels and without
a tree: operands and operators alternate, and every parenthesis that is closed has been opened. One
pass over the tokens that counts the open parentheses decides it. What the pass knows behind an
operand is the same whichever operand that was, so one operand can be exchanged for another.

## Main definitions

* `Expectation` — what a pass over tokens knows: what comes next, and how many parentheses are open
* `Expectation.scan` — the pass over some tokens

## Main results

* `exists_derives_iff_scan` — the token lists of expressions are those that the pass accepts
* `exists_derives_exchange` — one operand is as good as another
-/

namespace Formula

/-- What must come next within an expression, and how many parentheses are open. -/
inductive Expectation where
  | operand (depth : Nat)
  | operator (depth : Nat)
deriving DecidableEq, Repr

namespace Expectation

/-- What must come behind a token, if the token itself may come. -/
def step : Expectation → Token → Option Expectation
  | operand depth, .name _ | operand depth, .number _ => some (operator depth)
  | operand depth, .symbol .openParen => some (operand (depth + 1))
  | operator depth, .symbol (.operator _) => some (operand depth)
  | operator (depth + 1), .symbol .closeParen => some (operator depth)
  | _, _ => none

/-- What must come behind some tokens. -/
def scan (start : Expectation) (ts : List Token) : Option Expectation := ts.foldlM step start

variable {start : Expectation} {depth : Nat} {t : Token} {ts us : List Token}

@[simp] theorem scan_nil (start : Expectation) : start.scan [] = some start := rfl

@[simp] theorem scan_cons (start : Expectation) (t : Token) (ts : List Token) :
    start.scan (t :: ts) = (start.step t).bind (·.scan ts) := rfl

@[simp] theorem scan_append (start : Expectation) (ts us : List Token) :
    start.scan (ts ++ us) = (start.scan ts).bind (·.scan us) := List.foldlM_append

/-! ### The grammar is accepted -/

/-- Operations lead from behind an operand to behind an operand. -/
theorem scan_operations {ops : List Operation}
    (operands : ∀ o ∈ ops, ∀ depth, (operand depth).scan o.tokens = some (operator depth)) :
    (operator depth).scan (ops.flatMap Operation.written) = some (operator depth) := by
  induction ops with
  | nil => rfl
  | cons o ops ih =>
    obtain ⟨first, others⟩ := List.forall_mem_cons.mp operands
    simp [Operation.written, step, first depth, ih others]

/-- A phrase leads from in front of an operand to behind one, at any depth. -/
theorem scan_of_derives {p : Phrase} {e : Expr} (derives : p.Derives ts e) (depth : Nat) :
    (operand depth).scan ts = some (operator depth) := by
  induction derives generalizing depth with
  | name _ | number _ => rfl
  | parenthesized _ ih => simp [step, ih]
  | chain _ _ _ ihFirst ihOps => simp [ihFirst, scan_operations ihOps]

/-- No operand comes behind an operand. -/
theorem scan_operator_of_operand {e : Expr} (derives : Phrase.operand.Derives ts e) (depth : Nat) :
    (operator depth).scan ts = none := by
  cases derives <;> rfl

/-- Behind an operand it does not matter which one it is. -/
theorem scan_congr (start : Expectation) {e e' : Expr} (derives : Phrase.operand.Derives ts e)
    (derives' : Phrase.operand.Derives us e') : start.scan ts = start.scan us := by
  cases start with
  | operand depth => rw [scan_of_derives derives, scan_of_derives derives']
  | operator depth => rw [scan_operator_of_operand derives, scan_operator_of_operand derives']

/-! ### What is accepted is derived -/

/-- Behind operations with parentheses still open there is a closing one, and otherwise nothing. -/
inductive Closes : Nat → List Token → Prop
  | ends : Closes 0 []
  | closeParen {depth : Nat} {ts : List Token} :
      (operator depth).scan ts = some (operator 0) → Closes (depth + 1) (.symbol .closeParen :: ts)

mutual

/-- What is accepted in front of an operand begins with one. -/
theorem exists_operand_of_scan (ts : List Token) {depth : Nat}
    (accepted : (operand depth).scan ts = some (operator 0)) :
    ∃ first e rest, ts = first ++ rest ∧ Phrase.operand.Derives first e ∧
      (operator depth).scan rest = some (operator 0) := by
  match ts with
  | [] => simp at accepted
  | .name text :: ts => exact ⟨[.name text], _, ts, rfl, .name text, accepted⟩
  | .number value :: ts => exact ⟨[.number value], _, ts, rfl, .number value, accepted⟩
  | .symbol .openParen :: ts =>
    obtain ⟨first, e, rest, rfl, derives, behind⟩ := exists_operand_of_scan ts accepted
    obtain ⟨ops, rest, rfl, links, closes⟩ := exists_operations_of_scan rest behind
    cases closes with
    | closeParen closed =>
      obtain ⟨e', inside, _⟩ := exists_derives_splitTree derives links
      exact ⟨_, e', _, by simp, inside.parenthesized, closed⟩
  | .symbol (.operator _) :: _ | .symbol .equals :: _ | .symbol .closeParen :: _
  | .endOfText :: _ | .unreadable :: _ => simp [step] at accepted
termination_by ts.length

/-- What is accepted behind an operand begins with operations, as far as no parenthesis is closed
that was open before. -/
theorem exists_operations_of_scan (ts : List Token) {depth : Nat}
    (accepted : (operator depth).scan ts = some (operator 0)) :
    ∃ (ops : List Operation) (rest : List Token), ts = ops.flatMap Operation.written ++ rest ∧
      (∀ o ∈ ops, o.IsLink) ∧ Closes depth rest := by
  match ts, depth with
  | [], depth =>
    obtain rfl : depth = 0 := by simpa using accepted
    exact ⟨[], [], rfl, by simp, .ends⟩
  | .symbol (.operator op) :: ts, depth =>
    obtain ⟨first, e, rest, rfl, derives, behind⟩ := exists_operand_of_scan ts accepted
    obtain ⟨ops, rest, rfl, links, closes⟩ := exists_operations_of_scan rest behind
    refine ⟨⟨op, first, e⟩ :: ops, rest, ?_, List.forall_mem_cons.mpr ⟨derives, links⟩, closes⟩
    simp [Operation.written]
  | .symbol .closeParen :: ts, depth + 1 => exact ⟨[], _, rfl, by simp, .closeParen accepted⟩
  | .symbol .closeParen :: _, 0 | .symbol .equals :: _, _ | .symbol .openParen :: _, _
  | .name _ :: _, _ | .number _ :: _, _ | .endOfText :: _, _ | .unreadable :: _, _ =>
    simp [step] at accepted
termination_by ts.length

end

end Expectation

/-- **Counting decides which token lists are expressions.** -/
theorem exists_derives_iff_scan {ts : List Token} :
    (∃ e, Phrase.expression.Derives ts e) ↔
      (Expectation.operand 0).scan ts = some (.operator 0) := by
  constructor
  · rintro ⟨e, derives⟩
    exact Expectation.scan_of_derives derives 0
  · intro accepted
    obtain ⟨first, e, rest, rfl, derives, behind⟩ := Expectation.exists_operand_of_scan _ accepted
    obtain ⟨ops, rest, rfl, links, closes⟩ := Expectation.exists_operations_of_scan _ behind
    cases closes with
    | ends =>
      obtain ⟨e', whole, _⟩ := exists_derives_splitTree derives links
      exact ⟨e', by rwa [List.append_nil]⟩

/-- One operand is as good as another: whether tokens are an expression does not change when an
operand among them is exchanged for another one. -/
theorem exists_derives_exchange {before one other after : List Token} {e e' : Expr}
    (derives : Phrase.operand.Derives one e) (derives' : Phrase.operand.Derives other e') :
    (∃ e, Phrase.expression.Derives (before ++ (one ++ after)) e) ↔
      ∃ e, Phrase.expression.Derives (before ++ (other ++ after)) e := by
  have same (start : Expectation) : start.scan one = start.scan other :=
    start.scan_congr derives derives'
  simp only [exists_derives_iff_scan, Expectation.scan_append, same]

end Formula
