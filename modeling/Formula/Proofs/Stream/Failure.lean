import Formula.Proofs.Stream.Reading
import Formula.Rule.Basic

/-!
# Rules that fail without a trace

A rule may read any number of tokens before it finds that it fails. As long as it does not leave
its text, an attempt takes it back to the very place from which it began.

## Main definitions

* `Rule.Stays` — a rule ends in the text in which it begins
* `Rule.Neutral` — a rule that fails ends where it began

## Main results

* `Rule.Stays.neutral_attempt` — every attempt is neutral
-/

namespace Formula

namespace Rule

variable {σ α β : Type} {s s' : σ}

/-- Does the rule, when it fails, end where it began? -/
def Neutral (rule : Rule σ α) : Prop := ∀ s s', rule s = (none, s') → s' = s

/-- A neutral rule that gives no result fails, and ends where it began. -/
theorem Neutral.eq_none {rule : Rule σ α} (neutral : Neutral rule)
    (nothing : ∀ a s', rule s ≠ (some a, s')) : rule s = (none, s) := by
  rcases h : rule s with ⟨_ | a, m⟩
  · rw [neutral s m h]
  · exact absurd h (nothing a m)

theorem Neutral.orElse {first second : Rule σ α} (neutralFirst : Neutral first)
    (neutralSecond : Neutral second) : Neutral (first.orElse second) := by
  intro s s' failed
  rcases h : first s with ⟨_ | a, m⟩
  · rw [orElse_of_none h] at failed
    rw [neutralSecond m s' failed, neutralFirst s m h]
  · rw [orElse_eq_some_iff.mpr (Or.inl h)] at failed
    simp at failed

/-- The second of two rules begins where the first one began. -/
theorem Neutral.orElse_eq_some_iff {first second : Rule σ α} {a : α} (neutral : Neutral first) :
    first.orElse second s = (some a, s') ↔
      first s = (some a, s') ∨ first s = (none, s) ∧ second s = (some a, s') := by
  rw [Rule.orElse_eq_some_iff]
  constructor
  · rintro (given | ⟨m, failed, given⟩)
    · exact Or.inl given
    · obtain rfl := neutral s m failed
      exact Or.inr ⟨failed, given⟩
  · rintro (given | ⟨failed, given⟩)
    · exact Or.inl given
    · exact Or.inr ⟨s, failed, given⟩

/-- Changing the results of a neutral rule keeps it neutral. -/
theorem Neutral.bind_pure {rule : Rule σ α} (neutral : Neutral rule) (f : α → β) :
    Neutral (rule >>= fun a => pure (f a)) := by
  intro s s' failed
  rcases h : rule s with ⟨_ | a, m⟩ <;> simp only [Bind.bind, h] at failed
  · rw [← (Prod.mk.inj failed).2]
    exact neutral s m h
  · cases (Prod.mk.inj failed).1

variable [TokenStream σ] [RewindableStream σ]

/-- Does the rule always end in the text in which it begins? -/
def Stays (rule : Rule σ α) : Prop := ∀ s, RewindableStream.SameText s (rule s).2

theorem stays_pure (a : α) : Stays (pure a : Rule σ α) :=
  fun s => RewindableStream.equivalence.refl s

theorem stays_token (wanted : Token → Option α) : Stays (token wanted : Rule σ α) :=
  RewindableStream.sameText_next

theorem Stays.bind {rule : Rule σ α} {next : α → Rule σ β} (stays : Stays rule)
    (nextStays : ∀ a, Stays (next a)) : Stays (rule >>= next) := by
  intro s
  have first := stays s
  rcases h : rule s with ⟨_ | a, m⟩ <;> rw [h] at first <;> simp only [Bind.bind, h]
  · exact first
  · exact RewindableStream.equivalence.trans first (nextStays a m)

/-- A neutral rule whose results come from reading stays in its text. -/
theorem Neutral.stays {rule : Rule σ α} (neutral : Neutral rule)
    (reads : ∀ {s a s'}, rule s = (some a, s') → ∃ ts, Reads s ts s') : Stays rule := by
  intro s
  rcases h : rule s with ⟨_ | a, m⟩
  · rw [neutral s m h]
    exact RewindableStream.equivalence.refl s
  · obtain ⟨ts, reading⟩ := reads h
    exact reading.sameText

/-- An attempt stays in its text, whether it goes back or not. -/
theorem Stays.attempt {rule : Rule σ α} (stays : Stays rule) : Stays rule.attempt := by
  intro s
  rcases h : rule s with ⟨_ | a, m⟩
  · rw [attempt_of_none h]
    have there : RewindableStream.SameText s m := by simpa only [h] using stays s
    exact RewindableStream.equivalence.trans there (RewindableStream.sameText_seek _ _)
  · rw [attempt_eq_some_iff.mpr h]
    simpa only [h] using stays s

/-- An attempt that fails goes back to its start. -/
theorem Stays.neutral_attempt {rule : Rule σ α} (stays : Stays rule) : Neutral rule.attempt := by
  intro s s' failed
  rcases h : rule s with ⟨_ | a, m⟩
  · -- The attempt seeks the position of `s`, and in one text a position is one place.
    rw [attempt_of_none h] at failed
    have same : RewindableStream.SameText s m := by simpa only [h] using stays s
    rw [← (Prod.mk.inj failed).2]
    exact RewindableStream.seek_position same
  · rw [attempt_eq_some_iff.mpr h] at failed
    simp at failed

end Rule

end Formula
