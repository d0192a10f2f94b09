import Formula.Proofs.Double.ReadBack
import Formula.Proofs.Rendering.Results
import Formula.Proofs.Session.Texts

/-!
# Sessions work line by line

No answer has a line feed in it, nor a carriage return: what is printed are identifiers, numbers,
symbols and fixed texts. As no line leaves anything behind for the next one either, each line of the
output is the answer to one line of the input, and sessions on two texts can be put together to one
on both.

## Main definitions

* `Unbroken` — is a text free of line feeds and carriage returns?

## Main results

* `Session.unbroken_answer` — an answer is one line, whatever the line is that it answers
* `output_line_by_line` — the lines of the output are the answers to those of the input
-/

namespace Formula

/-- Is there neither a line feed nor a carriage return in the text? -/
def Unbroken (text : String) : Prop := ∀ c ∈ text.toList, c ≠ '\n' ∧ c ≠ '\r'

/-! ### Answers without line breaks -/

section Answers

variable {text text' : String} {t : Token} {e : Expr} {a : Statement}

@[simp] theorem unbroken_append : Unbroken (text ++ text') ↔ Unbroken text ∧ Unbroken text' := by
  simp only [Unbroken, String.toList_append, List.forall_mem_append]

/-- Characters of a kind that line breaks are not of make no line break. -/
theorem unbroken_of_forall {p : Char → Bool} (all : ∀ c ∈ text.toList, p c = true)
    (feed : p '\n' = false) (carriage : p '\r' = false) : Unbroken text := by
  intro c member
  have kind := all c member
  constructor
  · rintro rfl
    rw [feed] at kind
    cases kind
  · rintro rfl
    rw [carriage] at kind
    cases kind

theorem unbroken_of_isIdentifier (identifier : isIdentifier text = true) : Unbroken text := by
  obtain ⟨first, rest, pieces, _, nameChars⟩ := exists_toList_of_isIdentifier identifier
  exact unbroken_of_forall (pieces ▸ nameChars) (by decide) (by decide)

theorem Double.unbroken_text (x : Double) : Unbroken x.text := by
  have magnitude : Unbroken (magnitudeText x.rank) := by
    obtain ⟨d, cs, pieces, _, numberChars⟩ := exists_toList_magnitudeText x.rank
    exact unbroken_of_forall (pieces ▸ numberChars) (by decide) (by decide)
  rw [text]
  split
  · simp [Unbroken]
  · rw [unbroken_append]
    constructor
    · split <;> simp [Unbroken]
    · split
      · simp [Unbroken]
      · exact magnitude

theorem Symbol.unbroken_char (s : Symbol) : Unbroken (String.singleton s.char) := by
  rcases s with (_ | _ | _ | _ | _) | _ | _ | _ <;> simp [Unbroken, char, Operator.char]

theorem Token.unbroken_text (wellFormed : t.WellFormed) : Unbroken t.text := by
  cases t with
  | number value => exact value.unbroken_text
  | name text => exact unbroken_of_isIdentifier wellFormed
  | symbol s => exact s.unbroken_char
  | endOfText | unreadable => simp [text, Unbroken]

theorem Expr.unbroken_text (wellFormed : e.WellFormed) : Unbroken e.text := by
  induction e with
  | name text => exact unbroken_of_isIdentifier wellFormed
  | number value => exact value.unbroken_text
  | binary op left right ihLeft ihRight =>
    have sign : Unbroken (String.singleton op.char) := (Symbol.operator op).unbroken_char
    have fixed : Unbroken "(" ∧ Unbroken " " ∧ Unbroken ")" := by simp [Unbroken]
    simp only [text, unbroken_append]
    simp [ihLeft wellFormed.1, ihRight wellFormed.2, sign, fixed]

theorem Statement.unbroken_text (wellFormed : a.WellFormed) : Unbroken a.text := by
  cases a with
  | expression e => exact Expr.unbroken_text wellFormed
  | assignment target e =>
    have fixed : Unbroken " = " := by simp [Unbroken]
    simp [text, unbroken_of_isIdentifier wellFormed.1, Expr.unbroken_text wellFormed.2, fixed]

/-- What is in texts put together is in one of them or in what is between them. -/
theorem mem_toList_intercalate {c : Char} {separator : String} {texts : List String}
    (member : c ∈ (separator.intercalate texts).toList) :
    c ∈ separator.toList ∨ ∃ text ∈ texts, c ∈ text.toList := by
  induction texts with
  | nil => simp at member
  | cons first texts ih =>
    cases texts with
    | nil => exact Or.inr ⟨first, by simp, by simpa using member⟩
    | cons second texts =>
      rw [String.intercalate_cons_cons, String.toList_append, String.toList_append,
        List.mem_append, List.mem_append] at member
      rcases member with (inFirst | between) | later
      · exact Or.inr ⟨first, List.mem_cons_self, inFirst⟩
      · exact Or.inl between
      · refine (ih later).imp_right ?_
        rintro ⟨text, inTexts, inText⟩
        exact ⟨text, List.mem_cons_of_mem _ inTexts, inText⟩

/-- An answer is one line, whatever the line is that it answers. -/
theorem Session.unbroken_answer (session : Session) (line : String) :
    Unbroken (session.answer line) := by
  unfold answer
  split
  · cases parsed : Statement.parse session.strictness line with
    | none => simp [Statement.reply, Statement.parseError, Unbroken]
    | some a => exact Statement.unbroken_text (Statement.wellFormed_of_parse parsed)
  · intro c member
    rcases mem_toList_intercalate member with between | ⟨text, inTexts, inText⟩
    · obtain rfl : c = ' ' := by simpa using between
      decide
    · obtain ⟨t, inTokens, rfl⟩ := List.mem_map.mp inTexts
      exact Token.unbroken_text (wellFormed_of_mem_tokens inTokens) c inText

/-- There is no line feed in an answer. -/
theorem Session.newline_notMem_answer (session : Session) (line : String) :
    '\n' ∉ (session.answer line).toList :=
  fun member => (session.unbroken_answer line '\n' member).1 rfl

/-- There is no carriage return at the end of an answer. -/
@[simp] theorem Session.trimReturn_answer (session : Session) (line : String) :
    trimReturn (session.answer line) = session.answer line :=
  trimReturn_of_getLast?_ne fun last =>
    (session.unbroken_answer line '\r' (List.mem_of_getLast? last)).2 rfl

end Answers

/-! ### Outputs -/

section Outputs

variable {text x : String} {lines : List String} {last : String}

/-- A transcript is split into the answers. -/
theorem Session.lineSplit_transcript (session : Session) (texts : List String) :
    LineSplit (session.transcript texts)
      (texts.map fun text => utf8Encode (session.answer text)) [] where
  bytes_eq := by
    have single : String.utf8EncodeChar '\n' = [0x0A] := by decide
    simp [transcript, utf8Encode, List.flatMap_map, single]
  forall_notMem := by
    refine List.forall_mem_map.mpr fun text _ member => ?_
    exact session.newline_notMem_answer text (newline_mem_utf8Encode_iff.mp member)
  last_notMem := by simp

/-- Behind complete lines a session goes on as if there was nothing before. -/
theorem Session.output_append (session : Session) (y : String)
    (complete : x = "" ∨ x.toList.getLast? = some '\n') :
    session.output (x ++ y) = session.output x ++ session.output y := by
  obtain ⟨lines, last, split, _⟩ := existsUnique_textSplit x
  obtain ⟨more, rest, splitY, _⟩ := existsUnique_textSplit y
  obtain rfl := split.last_eq_empty_iff.mpr complete
  rw [output_eq split, output_eq splitY, output_eq (split.append splitY), textContents_append,
    transcript, List.flatMap_append]
  rfl

/-- Carriage returns in front of the line feeds have no meaning. -/
theorem Session.output_withReturns (session : Session) (free : '\r' ∉ text.toList) :
    session.output (withReturns text) = session.output text := by
  obtain ⟨lines, last, split, _⟩ := existsUnique_textSplit text
  have trimmed (line : String) (inLines : line ∈ lines) :
      trimReturn (line ++ "\r") = trimReturn line := by
    rw [trimReturn_append, trimReturn_of_getLast?_ne]
    intro ending
    apply free
    simp only [split.toList_eq, List.mem_append, List.mem_flatMap]
    exact Or.inl ⟨line, inLines, Or.inl (List.mem_of_getLast? ending)⟩
  have same : textContents (lines.map (· ++ "\r")) last = textContents lines last := by
    rw [textContents, textContents, List.map_map]
    congr 1
    exact List.map_congr_left trimmed
  rw [output_eq split, output_eq split.withReturns, same]

/-- A final line feed has no meaning behind a line that is not empty. -/
theorem Session.output_feed (session : Session) (nonempty : text ≠ "")
    (noFeed : text.toList.getLast? ≠ some '\n') (noReturn : text.toList.getLast? ≠ some '\r') :
    session.output (text ++ "\n") = session.output text := by
  obtain ⟨lines, last, split, _⟩ := existsUnique_textSplit text
  have someLast : last ≠ "" := by
    rw [ne_eq, split.last_eq_empty_iff, not_or]
    exact ⟨nonempty, noFeed⟩
  rw [split.getLast?_eq someLast] at noReturn
  have same : textContents (lines ++ [last]) "" = textContents lines last := by
    simp [textContents, someLast, trimReturn_of_getLast?_ne noReturn]
  rw [output_eq split, output_eq split.feed, same]

/-- **Sessions work line by line.** A session writes the same into every sink that takes it. For a
text behind complete lines it writes what it would write without them. Its output has one line for
each line of the text, which is the answer to that line alone, and no answer has a line feed in it.
Neither carriage returns in front of the line feeds nor a line feed at the end make a difference. -/
theorem output_line_by_line (session : Session) :
    (∀ text sink, sink.flushFault = none →
      (∀ limit ∈ sink.limit, (session.output text).length ≤ limit.room) →
      session.run ⟨utf8Encode text, none⟩ sink = ⟨sink.output ++ session.output text, none⟩) ∧
    (∀ x y, (x = "" ∨ x.toList.getLast? = some '\n') →
      session.output (x ++ y) = session.output x ++ session.output y) ∧
    (∀ text, ∃ lines last, TextSplit text lines last ∧
      (∀ lines' last', TextSplit text lines' last' → lines' = lines ∧ last' = last) ∧
      LineSplit (session.output text)
        ((textContents lines last).map fun line => utf8Encode (session.answer line)) []) ∧
    (∀ line, '\n' ∉ line.toList → session.output (line ++ "\n") =
      utf8Encode (session.answer (trimReturn line) ++ "\n")) ∧
    (∀ line, '\n' ∉ (session.answer line).toList) ∧
    (∀ text, '\r' ∉ text.toList → session.output (withReturns text) = session.output text) ∧
    ∀ text, text ≠ "" → text.toList.getLast? ≠ some '\n' → text.toList.getLast? ≠ some '\r' →
      session.output (text ++ "\n") = session.output text := by
  refine ⟨fun text sink flushes fits => ?_, fun x y => session.output_append y, fun text => ?_,
    fun line free => ?_, session.newline_notMem_answer, fun text => session.output_withReturns,
    fun text => session.output_feed⟩
  · obtain ⟨lines, last, split, _⟩ := existsUnique_textSplit text
    rw [Session.output_eq split] at fits ⊢
    rw [run_of_textSplit split fits, flushes]
    rfl
  · obtain ⟨lines, last, split, unique⟩ := existsUnique_textSplit text
    refine ⟨lines, last, split, unique, ?_⟩
    rw [Session.output_eq split]
    exact session.lineSplit_transcript _
  · have split : TextSplit (line ++ "\n") [line] "" := ⟨by simp, by simpa using free, by simp⟩
    rw [Session.output_eq split]
    simp [textContents, Session.transcript]

/-- The first line is malformed, and the others are answered as they would be without it, also with
carriage returns or a line feed at the end, and into a sink with just enough room. Of a malformed
line the tokens are printed up to where reading stops, and those of the line behind it as ever. -/
theorem output_line_by_line_malformed :
    let text := "a+\nb\n1."
    let output := utf8Encode "Parse error\nb\n1.0\n"
    Session.output {} text = output ∧ Session.output {} (withReturns text) = output ∧
    Session.output {} (text ++ "\n") = output ∧
    Session.run {} ⟨utf8Encode text, none⟩ ⟨some ⟨18, "full"⟩, none, []⟩ = ⟨output, none⟩ ∧
    Session.output ⟨.tokens, .lenient⟩ "1.2.3\na+\n" = utf8Encode "1.2 <error>\na + <end>\n" := by
  intro text output
  obtain ⟨runs, append, _, alone, _, returns, feed⟩ := output_line_by_line {}
  obtain ⟨_, appendTokens, _, aloneTokens, _⟩ := output_line_by_line ⟨.tokens, .lenient⟩
  have single (line : String) (free : '\n' ∉ line.toList) (noReturn : trimReturn line = line) :
      Session.output {} (line ++ "\n") = utf8Encode (Session.answer {} line ++ "\n") := by
    rw [alone line free, noReturn]
  have whole : Session.output {} text = output := by
    have last : Session.output {} "1." = utf8Encode (Session.answer {} "1." ++ "\n") := by
      rw [← feed "1." (by decide) (by decide) (by decide)]
      exact single "1." (by decide) (by decide +kernel)
    have parts : text = ("a+" ++ "\n") ++ (("b" ++ "\n") ++ "1.") := by decide +kernel
    rw [parts, append ("a+" ++ "\n") _ (by decide), append ("b" ++ "\n") _ (by decide), last,
      single "a+" (by decide) (by decide +kernel), single "b" (by decide) (by decide +kernel)]
    decide +kernel
  refine ⟨whole, ?_, ?_, ?_, ?_⟩
  · rw [returns text (by decide), whole]
  · rw [feed text (by decide) (by decide) (by decide), whole]
  · rw [runs text _ rfl (by rw [whole]; decide +kernel), whole]
    rfl
  · have parts : "1.2.3\na+\n" = ("1.2.3" ++ "\n") ++ ("a+" ++ "\n") := by decide +kernel
    rw [parts, appendTokens ("1.2.3" ++ "\n") _ (by decide), aloneTokens "1.2.3" (by decide),
      aloneTokens "a+" (by decide)]
    decide +kernel

end Outputs

end Formula
