import Formula.Proofs.Grammar.Kinds
import Formula.Proofs.Lexing.Lexes

/-!
# Texts cut short

Where a text is cut inside a number or a name, its last token has another value or another text, but
it is a number or a name as before. So a text that is made longer keeps the kinds of its tokens.

## Main results

* `Lexeme.of_append` — the front of a lexeme is a lexeme of the same kind
* `Lexes.exists_longer` — the tokens of a text keep their kinds when the text goes on
-/

namespace Formula

section Cutting

variable {cs l rest : List Char} {t : Token} {ts : List Token}

/-- The front of a lexeme is a lexeme of the same kind. -/
theorem Lexeme.of_append (lexeme : Lexeme (l ++ rest) t) (some : l ≠ []) :
    ∃ t', Lexeme l t' ∧ t'.kind = t.kind := by
  generalize text : l ++ rest = cs at lexeme
  cases lexeme with
  | integer _ digits =>
    subst text
    exact ⟨_, .integer some fun c member => digits c (List.mem_append_left rest member), by simp⟩
  | @decimal whole fraction someWhole wholeDigits digits =>
    rcases List.append_eq_append_iff.mp text with ⟨more, rfl, _⟩ | ⟨more, rfl, behind⟩
    · exact ⟨_, .integer some fun c member => wholeDigits c (List.mem_append_left more member),
        by simp⟩
    · cases more with
      | nil =>
        rw [List.append_nil]
        exact ⟨_, .integer someWhole wholeDigits, by simp⟩
      | cons c more =>
        obtain ⟨rfl, rfl⟩ := List.cons.inj behind
        exact ⟨_, .decimal someWhole wholeDigits fun c member =>
          digits c (List.mem_append_left rest member), by simp⟩
  | name letter nameChars =>
    obtain ⟨c, cs, rfl⟩ := List.exists_cons_of_ne_nil some
    obtain ⟨rfl, rfl⟩ := List.cons.inj text
    exact ⟨_, .name letter fun c member => nameChars c (List.mem_append_left rest member), by simp⟩
  | symbol s =>
    obtain ⟨c, cs, rfl⟩ := List.exists_cons_of_ne_nil some
    obtain ⟨rfl, nothing⟩ := List.cons.inj text
    obtain rfl := (List.append_eq_nil_iff.mp nothing).1
    exact ⟨_, .symbol s, rfl⟩

/-- Whether a token can be taken is decided by the first character. -/
theorem isStop_scanToken_cons (c : Char) (cs cs' : List Char) :
    (scanToken (c :: cs)).1.isStop = (scanToken (c :: cs')).1.isStop := by
  simp only [scanToken]
  split
  · simp only [Token.isStop]
  · split
    · simp only [Token.isStop]
    · split <;> rfl

/-- A lexeme in front of more text begins a lexeme of the same kind. -/
theorem Lexeme.exists_longer (lexeme : Lexeme l t) (tail : List Char) :
    ∃ more rest t', tail = more ++ rest ∧ Lexeme (l ++ more) t' ∧ t'.kind = t.kind ∧
      ∀ c ∈ rest.head?, prolongs (l ++ more) c = false := by
  have goesOn : (scanToken (l ++ tail)).1.isStop = false := by
    obtain ⟨c, cs, rfl⟩ := List.exists_cons_of_ne_nil lexeme.ne_nil
    rw [List.cons_append, isStop_scanToken_cons c _ cs, lexeme.scanToken_eq, lexeme.isStop_eq_false]
  rcases scanned : scanToken (l ++ tail) with ⟨t', rest⟩
  rw [scanned] at goesOn
  obtain ⟨l', text, lexeme', stop⟩ := exists_lexeme_of_scanToken scanned goesOn
  -- The lexeme that is taken cannot be the shorter one, for its own characters prolong it.
  rcases List.append_eq_append_iff.mp text with ⟨more, rfl, rfl⟩ | ⟨more, rfl, rfl⟩
  · obtain ⟨t'', front, kind⟩ := lexeme'.of_append lexeme.ne_nil
    rw [front.unique lexeme] at kind
    exact ⟨more, rest, t', rfl, lexeme', kind.symm, stop⟩
  · cases more with
    | nil =>
      rw [List.append_nil] at lexeme ⊢
      exact ⟨[], tail, t, rfl, by rwa [List.append_nil], rfl, by rwa [List.append_nil]⟩
    | cons c more =>
      have prolonged := lexeme.prolongs_of_append lexeme'.ne_nil
      rw [stop c rfl] at prolonged
      cases prolonged

/-- The tokens of a text keep their kinds when the text goes on. -/
theorem Lexes.exists_longer (lexes : Lexes cs ts rest) (blank : ∀ c ∈ rest, isBlank c = true)
    (tail : List Char) :
    ∃ us rest', Lexes (cs ++ tail) us rest' ∧ us.map Token.kind = ts.map Token.kind ∧
      rest'.dropWhile isBlank <:+ tail := by
  induction lexes with
  | nil cs =>
    refine ⟨[], cs ++ tail, .nil _, rfl, ?_⟩
    rw [List.dropWhile_append_of_pos blank]
    exact List.dropWhile_suffix isBlank
  | @cons blanks l mid rest t ts blanks_blank lexeme stop lexes ih =>
    rw [List.append_assoc, List.append_assoc]
    cases mid with
    | nil =>
      -- Only the last lexeme can become longer.
      obtain ⟨more, rest', t', rfl, longer, kind, stop'⟩ := lexeme.exists_longer tail
      have last : ts = [] := by
        generalize text : [] = cs at lexes
        cases lexes with
        | nil => rfl
        | cons _ lexeme _ _ => simp [lexeme.ne_nil] at text
      subst last
      refine ⟨[t'], rest', ?_, by simp [kind], ?_⟩
      · rw [List.nil_append, ← List.append_assoc l]
        exact .cons blanks_blank longer stop' (.nil rest')
      · exact (List.dropWhile_suffix isBlank).trans (List.suffix_append more rest')
    | cons c mid =>
      obtain ⟨us, rest', longer, kinds, suffix⟩ := ih blank
      exact ⟨t :: us, rest', .cons blanks_blank lexeme stop longer, by simp [kinds], suffix⟩

end Cutting

end Formula
