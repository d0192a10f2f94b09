import Formula.Proofs.Grammar.Statements

/-!
# Strict parsing

A line has a statement, strictly, exactly if its tokens before the end of the text are derived by
the grammar, and the statement is the one that they write. As the rules are functions, no token list
writes two statements.

## Main results

* `ofStream?_strict_eq_some_iff` — what a stream must hold to give a statement strictly
* `DerivesStatement.unique` — a token list writes at most one statement
* `parse_strict_iff_derives` — strict parsing is the grammar
-/

namespace Formula

open Statement

section Streams

variable {σ : Type} [TokenStream σ] [RewindableStream σ] {s s' : σ} {statement : Statement}

omit [RewindableStream σ] in
theorem atEnd_eq_some_iff {u : Unit} :
    Rule.atEnd s = (some u, s') ↔ TokenStream.next s = (.endOfText, s') := by
  simp only [Rule.atEnd, Rule.attempt_eq_some_iff, Rule.token_eq_some_iff,
    Token.exactly?_eq_some_iff]
  constructor
  · rintro ⟨_, next, rfl⟩
    exact next
  · intro next
    exact ⟨_, next, rfl⟩

/-- A stream gives a statement strictly if its tokens before the end of the text write it. -/
theorem ofStream?_strict_eq_some_iff (bounded : Bounded s) :
    ofStream? .strict s = some statement ↔
      ∃ ts s', Reads s ts s' ∧ (TokenStream.next s').1 = .endOfText ∧
        DerivesStatement ts statement := by
  constructor
  · intro given
    rcases h : Rule.statement s with ⟨_ | statement', s'⟩
    · simp [ofStream?, h] at given
    · obtain ⟨ts, reads, derives⟩ := statement_sound h
      rcases atEnd : Rule.atEnd s' with ⟨_ | u, s''⟩
      · simp [ofStream?, h, atEnd] at given
      · simp only [ofStream?, h, atEnd, Option.map_some, Option.some.injEq] at given
        rw [given] at derives
        exact ⟨ts, s', reads, by rw [atEnd_eq_some_iff.mp atEnd], derives⟩
  · rintro ⟨ts, s', reads, ending, derives⟩
    have given := statement_complete bounded derives reads (by rw [ending]; rfl)
    have atEnd : Rule.atEnd s' = (some (), _) :=
      atEnd_eq_some_iff.mpr (Prod.ext ending rfl)
    simp [ofStream?, given, atEnd]

end Streams

/-- A token list writes at most one statement. -/
theorem DerivesStatement.unique {ts : List Token} {first second : Statement}
    (derivesFirst : DerivesStatement ts first) (derivesSecond : DerivesStatement ts second) :
    first = second := by
  -- The rules give both of the same list, and they are functions.
  have bounded : Bounded (TokenList.mk (ts ++ [.endOfText]) 0) :=
    TokenList.bounded (by simp [Token.isStop])
  have reads : Reads (TokenList.mk (ts ++ [.endOfText]) 0) ts ⟨ts ++ [.endOfText], 0 + ts.length⟩ :=
    TokenList.reads_of_drop derivesFirst.isStop_eq_false rfl
  have ending : (TokenList.mk (ts ++ [.endOfText]) (0 + ts.length)).next.1 = .endOfText := by
    simp [TokenList.next]
  have gives {statement : Statement} (derives : DerivesStatement ts statement) :
      ofStream? .strict (TokenList.mk (ts ++ [.endOfText]) 0) = some statement :=
    (ofStream?_strict_eq_some_iff bounded).mpr ⟨ts, _, reads, ending, derives⟩
  exact Option.some_inj.mp ((gives derivesFirst).symm.trans (gives derivesSecond))

/-- A line has a statement strictly if its tokens before the end of the text write it. -/
theorem parse_strict_eq_some_iff {line : String} {statement : Statement} :
    parse .strict line = some statement ↔
      ∃ ts, tokens line = ts ++ [.endOfText] ∧ DerivesStatement ts statement := by
  rw [parse, ofStream?_strict_eq_some_iff (Reader.ofString line).bounded]
  constructor
  · rintro ⟨ts, r, reads, ending, derives⟩
    exact ⟨ts, (Reader.tokens_eq_append_iff rfl).mpr ⟨r, reads, ending⟩, derives⟩
  · rintro ⟨ts, all, derives⟩
    obtain ⟨r, reads, ending⟩ := (Reader.tokens_eq_append_iff rfl).mp all
    exact ⟨ts, r, reads, ending, derives⟩

/-- **Strict parsing is the grammar.** A line has a statement exactly if its token list ends at the
end of the text and the grammar derives the tokens before; the statement is the only one that those
tokens write. Any other line has none, among them every line with an unreadable character. -/
theorem parse_strict_iff_derives :
    (∀ line statement, parse .strict line = some statement ↔
      ∃ ts, tokens line = ts ++ [.endOfText] ∧ DerivesStatement ts statement) ∧
    (∀ ts first second, DerivesStatement ts first → DerivesStatement ts second → first = second) ∧
    (∀ line, parse .strict line = none ↔
      ¬∃ ts statement, tokens line = ts ++ [.endOfText] ∧ DerivesStatement ts statement) ∧
    ∀ line, (tokens line).getLast? = some .unreadable → parse .strict line = none := by
  have none_iff (line : String) : parse .strict line = none ↔
      ¬∃ ts statement, tokens line = ts ++ [.endOfText] ∧ DerivesStatement ts statement := by
    rw [Option.eq_none_iff_forall_ne_some]
    simp only [ne_eq, parse_strict_eq_some_iff, not_exists]
    exact forall_comm
  refine ⟨fun line statement => parse_strict_eq_some_iff,
    fun ts first second => DerivesStatement.unique, none_iff, fun line last => ?_⟩
  rw [none_iff]
  rintro ⟨ts, statement, all, _⟩
  rw [all] at last
  simp at last

/-- Powers are folded to the left, also on the right of an equals sign, and an unreadable character
behind an expression spoils its line. -/
theorem parse_strict_iff_derives_powers :
    parse .strict "a = b ^ c ^ d" = some (.assignment "a"
      (.binary .power (.binary .power (.name "b") (.name "c")) (.name "d"))) ∧
    (∀ other, DerivesStatement [.name "a", .symbol .equals, .name "b", .symbol (.operator .power),
        .name "c", .symbol (.operator .power), .name "d"] other →
      other = .assignment "a"
        (.binary .power (.binary .power (.name "b") (.name "c")) (.name "d"))) ∧
    parse .strict "a %" = none := by
  obtain ⟨accepts, unique, _, unreadable⟩ := parse_strict_iff_derives
  have operand (text : String) := Phrase.Derives.name text
  have derives := @Phrase.Derives.chain .power [.name "b"] (.name "b")
    [⟨.power, [.name "c"], .name "c"⟩, ⟨.power, [.name "d"], .name "d"⟩] (operand "b") (by decide)
    (by simpa using ⟨operand "c", operand "d"⟩)
  have assignment := DerivesStatement.assignment "a" derives.expression_of_chain
  exact ⟨(accepts _ _).mpr ⟨_, by decide +kernel, assignment⟩,
    fun other derivesOther => unique _ _ _ derivesOther assignment,
    unreadable _ (by decide +kernel)⟩

end Formula
