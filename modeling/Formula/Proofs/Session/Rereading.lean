import Formula.Proofs.Rendering.Reparsing
import Formula.Proofs.Session.LineByLine

/-!
# Sessions on their own output

What a session prints for the lines of a text is a text again, with the answers for its lines. So a
session can be given the output of another one. If that prints statements, most of its lines are
answered with themselves: texts of statements, names in place of infinite numbers, and the answer to
lines without a statement. Only a line with a power of ten is answered differently, and the answer
to that stays as it is. So the second output does not change any more.

## Main definitions

* `Session.Writes` — a session that meets no fault writes some bytes when it reads others
* `Statement.HoldsPower` — is a line the text of a statement with a power of ten in it?
* `Statement.Reread` — a printed line, and what is printed for that

## Main results

* `Session.exists_writes` — what a session writes for a text is a text of its answers
* `Session.output_reread` — what sessions write for the output of a session, and for that in turn
-/

namespace Formula

/-- Does the session write some bytes when it reads others, and meet no fault? -/
def Session.Writes (session : Session) (bytes out : List UInt8) : Prop :=
  ∃ sink : Sink, sink.written = [] ∧ session.run ⟨bytes, none⟩ sink = ⟨out, none⟩

namespace Statement

/-- Is the line the text of a statement that holds a number with a power of ten? -/
def HoldsPower (line : String) : Prop :=
  ∃ a : Statement, a.text = line ∧ ∃ x ∈ a.literals, x.IsScientific

/-- A printed line, and what is printed for that: the same line, unless it holds a power of ten. The
answer to a line without a statement has none either. -/
structure Reread (line again : String) : Prop where
  refused : HoldsPower line → again = parseError
  kept : ¬HoldsPower line → again = line
  error : line = parseError → again = parseError

/-! ### Lines -/

section Lines

variable {line : String} {a : Statement}

/-- A line that holds a power of ten has no statement. -/
theorem HoldsPower.parse_eq_none (holds : HoldsPower line) : parse .strict line = none := by
  obtain ⟨a, rfl, scientific⟩ := holds
  exact parse_text_of_scientific scientific

/-- Of all statements with the text of a well-formed one, either none holds a power of ten or the
well-formed one does. -/
theorem holdsPower_text_iff (wellFormed : a.WellFormed) :
    HoldsPower a.text ↔ ∃ x ∈ a.literals, x.IsScientific :=
  ⟨fun holds => (parse_text_eq_none_iff wellFormed).mp holds.parse_eq_none,
    fun scientific => ⟨a, rfl, scientific⟩⟩

/-- The answer to a line without a statement is no statement. -/
theorem reply_parse_parseError : reply (parse .strict parseError) = parseError := by
  decide +kernel

/-- A printed line is printed again if it holds no power of ten. -/
theorem reply_parse_reply {strictness : Strictness}
    (free : ¬HoldsPower (reply (parse strictness line))) :
    reply (parse .strict (reply (parse strictness line))) = reply (parse strictness line) := by
  cases parsed : parse strictness line with
  | none => exact reply_parse_parseError
  | some a =>
    have wellFormed := wellFormed_of_parse parsed
    rw [parsed, reply, holdsPower_text_iff wellFormed] at free
    push Not at free
    rw [reply, parse_text wellFormed free]
    exact text_nameInfinities wellFormed

/-- Whether a printed line is printed again is a matter of powers of ten alone. -/
theorem reread_reply (strictness : Strictness) (line : String) :
    Reread (reply (parse strictness line)) (reply (parse .strict (reply (parse strictness line))))
    where
  refused holds := by rw [holds.parse_eq_none, reply]
  kept free := reply_parse_reply free
  error same := by rw [same, reply_parse_parseError]

/-- What is printed for a printed line is printed for itself. -/
theorem Reread.reply_parse_again {again : String} (reread : Reread line again)
    (answers : reply (parse .strict line) = again) : reply (parse .strict again) = again := by
  by_cases holds : HoldsPower line
  · rw [reread.refused holds, reply_parse_parseError]
  · rw [reread.kept holds] at answers ⊢
    exact answers

end Lines

end Statement

namespace Session

/-! ### Texts -/

section Texts

variable {session : Session} {text last : String} {lines : List String} {out : List UInt8}

/-- A session that meets no fault writes its transcript, and there is one. -/
theorem writes_iff (split : TextSplit text lines last) :
    session.Writes (utf8Encode text) out ↔ out = session.transcript (textContents lines last) := by
  constructor
  · rintro ⟨sink, empty, outcome⟩
    have nothing : sink.output = [] := by rw [Sink.output, empty, List.reverse_nil]
    by_cases fits : ∀ limit ∈ sink.limit,
        (session.transcript (textContents lines last)).length ≤ limit.room
    · rw [run_of_textSplit split fits, nothing] at outcome
      exact (congrArg Outcome.output outcome).symm
    · -- Without enough room the write would have failed.
      push Not at fits
      obtain ⟨limit, limited, overflow⟩ := fits
      rw [run_of_overflow split.lineSplit (legible_contents text lines last) limited overflow]
        at outcome
      cases congrArg Outcome.failure outcome
  · rintro rfl
    exact ⟨{}, rfl, run_of_textSplit split (by simp)⟩

/-- Any lines are those of a text. -/
theorem exists_textSplit (free : ∀ line ∈ lines, '\n' ∉ line.toList) :
    ∃ text, TextSplit text lines "" :=
  ⟨String.ofList (lines.flatMap fun line => line.toList ++ ['\n']), by simp, free, by simp⟩

/-- What a session writes for a text is a text, and its lines are the answers. -/
theorem exists_writes (session : Session) (split : TextSplit text lines last) :
    ∃ answers, TextSplit answers ((textContents lines last).map session.answer) "" ∧
      ∀ out, session.Writes (utf8Encode text) out ↔ out = utf8Encode answers := by
  have free : ∀ line ∈ (textContents lines last).map session.answer, '\n' ∉ line.toList :=
    List.forall_mem_map.mpr fun line _ => session.newline_notMem_answer line
  obtain ⟨answers, splitAnswers⟩ := exists_textSplit free
  refine ⟨answers, splitAnswers, fun out => ?_⟩
  have transcript := (session.lineSplit_transcript (textContents lines last)).bytes_eq
  have bytes := splitAnswers.lineSplit.bytes_eq
  rw [List.map_map] at bytes
  rw [writes_iff split, transcript, bytes]
  rfl

theorem answer_statement (strictness : Strictness) (line : String) :
    answer ⟨.statement, strictness⟩ line = Statement.reply (Statement.parse strictness line) := rfl

/-- The lines that answers give are the answers. -/
theorem textContents_map_answer (session : Session) (lines : List String) :
    textContents (lines.map session.answer) "" = lines.map session.answer := by
  simp [textContents]

end Texts

/-- **Sessions on their own output.** What a session that prints statements writes for a text is a
text, and for that a strict session writes another one with as many lines. A line of the second text
is that of the first, unless the latter is the text of a statement that holds a number with a power
of ten: then it is the answer to a line without a statement. For the second text a strict session
writes the second text. -/
theorem output_reread (strictness : Strictness) (text : String) :
    ∃ (first second : String) (lines agains : List String),
      TextSplit first lines "" ∧ TextSplit second agains "" ∧
      (∀ out, Session.Writes ⟨.statement, strictness⟩ (utf8Encode text) out ↔
        out = utf8Encode first) ∧
      (∀ out, Session.Writes {} (utf8Encode first) out ↔ out = utf8Encode second) ∧
      (∀ out, Session.Writes {} (utf8Encode second) out ↔ out = utf8Encode second) ∧
      List.Forall₂ Statement.Reread lines agains := by
  obtain ⟨inputs, last, split, _⟩ := existsUnique_textSplit text
  obtain ⟨first, splitFirst, writesFirst⟩ := exists_writes ⟨.statement, strictness⟩ split
  obtain ⟨second, splitSecond, writesSecond⟩ := exists_writes {} splitFirst
  obtain ⟨third, splitThird, writesThird⟩ := exists_writes {} splitSecond
  rw [textContents_map_answer] at splitSecond splitThird
  rw [textContents_map_answer] at splitThird
  -- The lines of the second text are the answers to themselves.
  have again (input : String) : answer {} (answer {} (answer ⟨.statement, strictness⟩ input)) =
      answer {} (answer ⟨.statement, strictness⟩ input) := by
    simp only [answer_statement]
    exact (Statement.reread_reply strictness input).reply_parse_again rfl
  have stable : second = third := by
    refine splitSecond.text_unique ?_
    simpa only [List.map_map, Function.comp_def, again] using splitThird
  refine ⟨first, second, _, _, splitFirst, splitSecond, writesFirst, writesSecond,
    stable ▸ writesThird, ?_⟩
  rw [List.forall₂_map_right_iff, List.forall₂_same]
  simp only [answer_statement]
  exact List.forall_mem_map.mpr fun input _ => Statement.reread_reply strictness input

/-- A power of ten is lost, and everything else stays. -/
theorem output_reread_power :
    let first := "x = 1.0E7\nParse error\n(1.0 / 2.0)\n"
    let second := "Parse error\nParse error\n(1.0 / 2.0)\n"
    Statement.HoldsPower "x = 1.0E7" ∧
    Session.Writes ⟨.statement, .lenient⟩ (utf8Encode "x=10000000\n.5\n1/2 )") (utf8Encode first) ∧
    Session.Writes {} (utf8Encode first) (utf8Encode second) ∧
    Session.Writes {} (utf8Encode second) (utf8Encode second) := by
  intro first second
  obtain ⟨first', second', _, _, _, _, writesFirst, writesSecond, writesThird, _⟩ :=
    output_reread .lenient "x=10000000\n.5\n1/2 )"
  have writes : Session.Writes ⟨.statement, .lenient⟩ (utf8Encode "x=10000000\n.5\n1/2 )")
      (utf8Encode first) := ⟨{}, rfl, by decide +kernel⟩
  have writes' : Session.Writes {} (utf8Encode first) (utf8Encode second) :=
    ⟨{}, rfl, by decide +kernel⟩
  obtain rfl : first = first' := utf8Encode_injective ((writesFirst _).mp writes)
  obtain rfl : second = second' := utf8Encode_injective ((writesSecond _).mp writes')
  refine ⟨⟨.assignment "x" (.number (.ofRatio 10000000 1)), by decide +kernel, _,
    List.mem_cons_self, Double.isScientific_iff.mpr ⟨?_, ?_⟩⟩, writes, writes',
    (writesThird _).mpr rfl⟩
  · decide +kernel
  · decide +kernel

end Session

end Formula
