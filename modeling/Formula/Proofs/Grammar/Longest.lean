import Formula.Proofs.Grammar.Bounds
import Formula.Proofs.Reader.Boundaries

/-!
# The longest phrase

From wherever a reader stands, a rule finds a phrase if the grammar derives any of the tokens that
are next, and the one it finds is the longest of these. The reader then stands right behind the last
lexeme of the phrase. Neither the blanks that follow nor anything else that the rule may have looked
at is taken.

It is enough for that to know that what a rule reads is derived, that it reads to the end at least
of what is derived, and that no token list has two meanings.

## Main definitions

* `LongestPhrase` — the longest phrase that is next for a reader
* `StandsBehind` — does a reader stand right behind some tokens?
* `MatchesLongest` — does a rule find the longest phrase, and stop behind it?
* `ReadsPhrases` — what is known of a rule once it is compared with the grammar

## Main results

* `Reads.standsBehind`, `StandsBehind.unique` — what has read some tokens stands behind them, and
  nothing else does
* `ReadsPhrases.matchesLongest` — that is enough to find the longest phrase
* `rules_match_longest` — the rules find the longest phrase
-/

namespace Formula

section Definitions

variable {α : Type} (derives : List Token → α → Prop)

/-- The tokens are next for the reader, and are derived as `a` by some part of the grammar; no more
of the tokens that are next are derived. -/
structure LongestPhrase (r : Reader) (ts : List Token) (a : α) : Prop where
  isPrefix : ts <+: r.tokens
  derived : derives ts a
  longest : ∀ us b, us <+: r.tokens → derives us b → us.length ≤ ts.length

/-- Does `r'` stand right behind the tokens that are next for `r`? It stands where the last of their
lexemes ends, and the token that follows them is next. -/
structure StandsBehind (r : Reader) (ts : List Token) (r' : Reader) : Prop where
  text : r'.text = r.text
  offset : ∃ front back blanks rest, Decomposes r.unread (front ++ back) blanks rest ∧
    front.map Piece.token = ts ∧ r'.offset = r.offset + utf8Length (front.flatMap Piece.text)
  tokens : r.tokens = ts ++ r'.tokens
  next : r.tokens[ts.length]? = some r'.next.1

/-- Does the rule give a result exactly if some tokens that are next are derived, is that what the
longest of these lists writes, and does the rule stop behind them? If it gives none, then it goes
nowhere. -/
structure MatchesLongest (rule : Rule Reader α) : Prop where
  isSome_iff : ∀ r, (rule r).1.isSome ↔ ∃ ts a, ts ≠ [] ∧ ts <+: r.tokens ∧ derives ts a
  eq_some_iff : ∀ r a, (rule r).1 = some a ↔ ∃ ts, LongestPhrase derives r ts a
  standsBehind : ∀ r ts a, LongestPhrase derives r ts a → StandsBehind r ts (rule r).2
  neutral : ∀ r, (rule r).1 = none → (rule r).2 = r

/-- What is known of a rule once it is compared with the grammar: it reads what is derived, it reads
to the end at least of anything derived that is next, and a failure leaves no trace. What is derived
is of one meaning, not empty, and free of stops. -/
structure ReadsPhrases (rule : Rule Reader α) : Prop where
  sound : ∀ {r a r'}, rule r = (some a, r') → ∃ ts, Reads r ts r' ∧ derives ts a
  reach : ∀ {r ts a r'}, derives ts a → Reads r ts r' →
    ∃ b more r'', rule r = (some b, r'') ∧ Reads r' more r''
  unique : ∀ {ts a b}, derives ts a → derives ts b → a = b
  ne_nil : ∀ {ts a}, derives ts a → ts ≠ []
  goesOn : ∀ {ts a}, derives ts a → ∀ t ∈ ts, t.isStop = false
  neutral : rule.Neutral

end Definitions

/-! ### Behind some tokens -/

section Places

variable {r r' r'' : Reader} {cs mid blanks rest : List Char} {ts : List Token}
variable {back : List Piece}

/-- What the tokens of a text are split off from is decomposed, and they are its first ones. -/
theorem Lexes.exists_decomposes (lexes : Lexes cs ts mid)
    (behind : Decomposes mid back blanks rest) :
    ∃ front, Decomposes cs (front ++ back) blanks rest ∧ front.map Piece.token = ts := by
  induction lexes with
  | nil cs => exact ⟨[], behind, rfl⟩
  | @cons run l mid _ t ts blank lexeme stop _ ih =>
    obtain ⟨front, decomposes, rfl⟩ := ih behind
    have whole := @Decomposes.piece ⟨run, l, t⟩ _ _ _ _ ⟨blank, lexeme.isBlank_head⟩ lexeme stop
      decomposes
    rw [Piece.text, List.append_assoc] at whole
    exact ⟨⟨run, l, t⟩ :: front, whole, rfl⟩

theorem Reader.head?_tokens (r : Reader) : r.tokens.head? = some r.next.1 := by
  cases stop : r.next.1.isStop with
  | true => rw [Reader.tokens_of_isStop stop, List.head?_cons]
  | false => rw [Reader.tokens_of_not_isStop stop, List.head?_cons]

/-- A reader that has read some tokens stands behind them. -/
theorem Reads.standsBehind (reads : Reads r ts r') : StandsBehind r ts r' := by
  obtain ⟨same, lexes⟩ := reads_iff_lexes.mp reads
  refine ⟨same.symm, ?_, reads.tokens_eq, ?_⟩
  · obtain ⟨back, blanks, rest, behind⟩ := exists_decomposes r'.unread
    obtain ⟨front, decomposes, tokens⟩ := lexes.exists_decomposes behind
    refine ⟨front, back, blanks, rest, decomposes, tokens, ?_⟩
    have total := congrArg utf8Length decomposes.text_eq
    have left := congrArg utf8Length behind.text_eq
    have before := r.offset_add_utf8Length_unread
    have after := r'.offset_add_utf8Length_unread
    rw [same] at before
    simp only [List.flatMap_append, utf8Length_append] at total left
    omega
  · rw [reads.tokens_eq, List.getElem?_append_right (Nat.le_refl _), Nat.sub_self,
      ← List.head?_eq_getElem?, Reader.head?_tokens]

/-- There is one place behind some tokens. -/
theorem StandsBehind.unique (first : StandsBehind r ts r') (second : StandsBehind r ts r'') :
    r' = r'' := by
  obtain ⟨front, back, _, _, decomposes, tokens, offset⟩ := first.offset
  obtain ⟨front', back', _, _, decomposes', tokens', offset'⟩ := second.offset
  have length : front'.length = front.length := by
    rw [← List.length_map Piece.token, tokens', ← tokens, List.length_map]
  obtain ⟨pieces, -, -⟩ := decomposes.unique decomposes'
  obtain ⟨rfl, -⟩ := List.append_inj pieces length
  exact Reader.ext_offset (first.text.trans second.text.symm) (offset.trans offset'.symm)

/-- Tokens that are next can be read, unless there is a stop among them. -/
theorem exists_reads_of_isPrefix (isPrefix : ts <+: r.tokens)
    (goesOn : ∀ t ∈ ts, t.isStop = false) : ∃ r', Reads r ts r' := by
  obtain ⟨us, last, reads, stop, all⟩ := r.exists_tokens_eq
  rw [all] at isPrefix
  have inside : ts <+: us := by
    rcases List.prefix_concat_iff.mp isPrefix with rfl | inside
    · have := goesOn last.next.1 (by simp)
      rw [stop] at this
      cases this
    · exact inside
  obtain ⟨more, rfl⟩ := inside
  obtain ⟨r', front, _⟩ := reads.split
  exact ⟨r', front⟩

end Places

/-! ### Rules that read far enough -/

section Rules

variable {α : Type} {derives : List Token → α → Prop} {rule : Rule Reader α}
variable {r r' : Reader} {ts us : List Token} {a b : α}

/-- There is one longest phrase at most. -/
theorem LongestPhrase.tokens_unique (first : LongestPhrase derives r ts a)
    (second : LongestPhrase derives r us b) : ts = us := by
  have le := first.longest us b second.isPrefix second.derived
  have ge := second.longest ts a first.isPrefix first.derived
  exact (List.prefix_of_prefix_length_le first.isPrefix second.isPrefix ge).eq_of_length
    (Nat.le_antisymm ge le)

namespace ReadsPhrases

/-- Where some tokens that are next are derived, the rule gives a result. -/
theorem exists_eq_some (reading : ReadsPhrases derives rule) (isPrefix : ts <+: r.tokens)
    (derived : derives ts a) : ∃ b r', rule r = (some b, r') := by
  obtain ⟨m, reads⟩ := exists_reads_of_isPrefix isPrefix (reading.goesOn derived)
  obtain ⟨b, _, r', given, _⟩ := reading.reach derived reads
  exact ⟨b, r', given⟩

/-- What the rule gives is the longest phrase. -/
theorem exists_longestPhrase (reading : ReadsPhrases derives rule)
    (given : rule r = (some a, r')) : ∃ ts, Reads r ts r' ∧ LongestPhrase derives r ts a := by
  obtain ⟨ts, reads, derived⟩ := reading.sound given
  refine ⟨ts, reads, ⟨r'.tokens, reads.tokens_eq.symm⟩, derived, ?_⟩
  intro us b isPrefix derived'
  obtain ⟨m, reads'⟩ := exists_reads_of_isPrefix isPrefix (reading.goesOn derived')
  obtain ⟨_, more, r'', given', further⟩ := reading.reach derived' reads'
  -- The rule has read all of these tokens, and maybe more behind them.
  obtain ⟨-, rfl⟩ := Prod.mk.inj (given.symm.trans given')
  have bounded : Bounded r := r.bounded
  rw [bounded.reads_unique reads (reads'.append further), List.length_append]
  exact Nat.le_add_right ..

/-- The rule gives the longest phrase if there is one. -/
theorem eq_some_of_longestPhrase (reading : ReadsPhrases derives rule)
    (longest : LongestPhrase derives r ts a) : ∃ r', rule r = (some a, r') ∧ Reads r ts r' := by
  obtain ⟨b, r', given⟩ := reading.exists_eq_some longest.isPrefix longest.derived
  obtain ⟨us, reads, longest'⟩ := reading.exists_longestPhrase given
  obtain rfl := longest.tokens_unique longest'
  obtain rfl := reading.unique longest.derived longest'.derived
  exact ⟨r', given, reads⟩

/-- A rule that reads phrases to their ends finds the longest one. -/
theorem matchesLongest (reading : ReadsPhrases derives rule) : MatchesLongest derives rule where
  isSome_iff r := by
    constructor
    · intro isSome
      obtain ⟨a, given⟩ := Option.isSome_iff_exists.mp isSome
      obtain ⟨ts, _, longest⟩ := reading.exists_longestPhrase (Prod.ext given rfl)
      exact ⟨ts, a, reading.ne_nil longest.derived, longest.isPrefix, longest.derived⟩
    · rintro ⟨ts, a, -, isPrefix, derived⟩
      obtain ⟨b, r', given⟩ := reading.exists_eq_some isPrefix derived
      rw [given]
      rfl
  eq_some_iff r a := by
    constructor
    · intro given
      obtain ⟨ts, _, longest⟩ := reading.exists_longestPhrase (Prod.ext given rfl)
      exact ⟨ts, longest⟩
    · rintro ⟨ts, longest⟩
      obtain ⟨r', given, _⟩ := reading.eq_some_of_longestPhrase longest
      rw [given]
  standsBehind r ts a longest := by
    obtain ⟨r', given, reads⟩ := reading.eq_some_of_longestPhrase longest
    rw [given]
    exact reads.standsBehind
  neutral r failed := reading.neutral r _ (Prod.ext failed rfl)

end ReadsPhrases

end Rules

/-! ### The rules of the grammar -/

theorem readsPhrases_expression : ReadsPhrases Phrase.expression.Derives Rule.expression where
  sound := expression_sound
  reach := expression_reach (Reader.bounded _)
  unique := Phrase.Derives.unique
  ne_nil derives := List.ne_nil_of_length_pos derives.length_pos
  goesOn := Phrase.Derives.isStop_eq_false
  neutral := neutral_expression

theorem readsPhrases_assignment : ReadsPhrases DerivesAssignment Rule.assignment where
  sound := assignment_sound
  reach := assignment_reach (Reader.bounded _)
  unique first second := first.derivesStatement.unique second.derivesStatement
  ne_nil derives := derives.derivesStatement.ne_nil
  goesOn derives := derives.derivesStatement.isStop_eq_false
  neutral := neutral_assignment

theorem readsPhrases_statement : ReadsPhrases DerivesStatement Rule.statement where
  sound := statement_sound
  reach := statement_reach (Reader.bounded _)
  unique := DerivesStatement.unique
  ne_nil := DerivesStatement.ne_nil
  goesOn := DerivesStatement.isStop_eq_false
  neutral := neutral_statement

/-- **Rules match the longest phrase and stop at its end.** Wherever a reader stands in its text,
the rules of expressions, of assignments and of statements find one exactly if the grammar derives
it from some of the tokens that are next. They find the longest, and leave the reader behind its
last lexeme, so that the token that follows it is next. -/
theorem rules_match_longest :
    MatchesLongest Phrase.expression.Derives Rule.expression ∧
    MatchesLongest DerivesAssignment Rule.assignment ∧
    MatchesLongest DerivesStatement Rule.statement :=
  ⟨readsPhrases_expression.matchesLongest, readsPhrases_assignment.matchesLongest,
    readsPhrases_statement.matchesLongest⟩

-- The operator has no operand, so it is not taken, and neither is the blank in front of it.
example : (Rule.expression (Reader.ofString "1 + 2 * (3")).2.offset = 5 := by decide +kernel

end Formula
