import Formula.Rule.Stream

/-!
# Rules

A rule reads from a token stream and either gives a result or fails. Where it leaves the stream when
it fails is its own affair; `attempt` makes it go back to where it began.

## Main definitions

* `Rule` — rules, with their sequencing
* `Rule.orElse` — a second rule where a first one fails
* `Rule.token` — the next token, if it is of the wanted kind
* `Rule.attempt` — a rule that goes back to its start when it fails
* `Rule.many` — a rule again and again, until it fails

## Main results

* `Rule.bind_eq_some_iff`, `Rule.orElse_eq_some_iff` — when a sequence or a choice gives a result
* `Rule.attempt_eq_some_iff`, `Rule.attempt_of_none` — what an attempt gives and leaves behind
-/

namespace Formula

/-- A rule that reads from a stream `σ` and gives an `α` or fails. -/
def Rule (σ α : Type) : Type := σ → Option α × σ

namespace Rule

variable {σ α β : Type} {s s' : σ} {a : α} {b : β}

/-- Rules run one after the other, and the first failure ends the run. -/
instance : Monad (Rule σ) where
  pure a := fun s => (some a, s)
  bind rule next := fun s =>
    match rule s with
    | (some a, s') => next a s'
    | (none, s') => (none, s')

@[simp] theorem pure_apply (a : α) (s : σ) : (pure a : Rule σ α) s = (some a, s) := rfl

/-- A sequence gives a result if both of its parts do. -/
theorem bind_eq_some_iff {rule : Rule σ α} {next : α → Rule σ β} :
    (rule >>= next) s = (some b, s') ↔ ∃ a m, rule s = (some a, m) ∧ next a m = (some b, s') := by
  rcases h : rule s with ⟨_ | a, m⟩ <;> simp [bind, h, and_assoc]

theorem bind_of_none {rule : Rule σ α} (h : rule s = (none, s')) (next : α → Rule σ β) :
    (rule >>= next) s = (none, s') := by
  simp [bind, h]

theorem bind_of_some {rule : Rule σ α} (h : rule s = (some a, s')) (next : α → Rule σ β) :
    (rule >>= next) s = next a s' := by
  simp [bind, h]

/-- A rule that fails at once. -/
def fail : Rule σ α := fun s => (none, s)

/-- The first rule, or the second one from where the first one has failed. -/
def orElse (first second : Rule σ α) : Rule σ α := fun s =>
  match first s with
  | (some a, s') => (some a, s')
  | (none, s') => second s'

/-- A choice gives the result of its first rule, or that of its second where the first fails. -/
theorem orElse_eq_some_iff {first second : Rule σ α} :
    first.orElse second s = (some a, s') ↔
      first s = (some a, s') ∨ ∃ m, first s = (none, m) ∧ second m = (some a, s') := by
  rcases h : first s with ⟨_ | a, m⟩ <;> simp [orElse, h]

theorem orElse_of_none {first second : Rule σ α} (h : first s = (none, s')) :
    first.orElse second s = second s' := by
  simp [orElse, h]

theorem orElse_of_some {first second : Rule σ α} (h : first s = (some a, s')) :
    first.orElse second s = (some a, s') := by
  simp [orElse, h]

variable [TokenStream σ]

/-- Reads a token and fails unless it is of the wanted kind. -/
def token (wanted : Token → Option α) : Rule σ α := fun s =>
  (wanted (TokenStream.next s).1, (TokenStream.next s).2)

theorem token_eq_some_iff {wanted : Token → Option α} :
    token wanted s = (some a, s') ↔ ∃ t, TokenStream.next s = (t, s') ∧ wanted t = some a := by
  rcases h : TokenStream.next s with ⟨t, m⟩
  simp only [token, h, Prod.mk.injEq]
  constructor
  · rintro ⟨given, rfl⟩
    exact ⟨t, ⟨rfl, rfl⟩, given⟩
  · rintro ⟨t, ⟨rfl, rfl⟩, given⟩
    exact ⟨given, rfl⟩

/-- The stream `after`, or, unless what led there is kept, that stream gone back to the position of
`start`. -/
def settle (start : σ) (kept : Bool) (after : σ) : σ :=
  if kept then after else TokenStream.seek after (TokenStream.position start)

/-- A rule that goes back to its start when it fails. -/
def attempt (rule : Rule σ α) : Rule σ α := fun s =>
  let (result, s') := rule s
  (result, settle s result.isSome s')

/-- An attempt gives what its rule gives. -/
theorem attempt_eq_some_iff {rule : Rule σ α} :
    rule.attempt s = (some a, s') ↔ rule s = (some a, s') := by
  rcases h : rule s with ⟨_ | a, m⟩ <;> simp [attempt, settle, h]

theorem attempt_of_none {rule : Rule σ α} (h : rule s = (none, s')) :
    rule.attempt s = (none, TokenStream.seek s' (TokenStream.position s)) := by
  simp [attempt, settle, h]

/-- The results of a rule that is run until it fails, or `limit` times, and where that ends. -/
def many (rule : Rule σ α) : Nat → σ → List α × σ
  | 0, s => ([], s)
  | limit + 1, s =>
    match rule s with
    | (none, s') => ([], s')
    | (some a, s') =>
      let (more, s'') := many rule limit s'
      (a :: more, s'')

omit [TokenStream σ] in
theorem many_succ_of_none {rule : Rule σ α} (h : rule s = (none, s')) (limit : Nat) :
    many rule (limit + 1) s = ([], s') := by
  simp only [many, h]

omit [TokenStream σ] in
theorem many_succ_of_some {rule : Rule σ α} (h : rule s = (some a, s')) (limit : Nat) :
    many rule (limit + 1) s = (a :: (many rule limit s').1, (many rule limit s').2) := by
  simp only [many, h]

end Rule

end Formula
