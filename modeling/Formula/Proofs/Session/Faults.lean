import Formula.Proofs.Session.Lines
import Formula.Session.Basic

/-!
# Sessions under faults

A sink does not care how what it receives is cut into writes, so the writes of a session amount to
one write of its whole transcript: the answers to all texts that can be read. Everything a session
leaves behind follows from comparing the length of the transcript with the room in the sink.

## Main definitions

* `Session.transcript` — the answers to some texts, one a line

## Main results

* `Sink.write_append` — two writes in turn are one write
* `Session.feed_of_legible` — the writes of a session are one write of its transcript
* `run_eq_of_legible` — what a session leaves behind, with any faults
-/

namespace Formula

/-! ### Writes -/

section Writes

variable {sink : Sink} {limit : Limit} {bytes : List UInt8}

/-- Writing nothing changes nothing. -/
theorem Sink.write_nil (sink : Sink) : sink.write [] = (none, sink) := by
  obtain ⟨_ | limit, flushFault, written⟩ := sink <;> simp [write]

/-- Two writes in turn, the second if the first went well, are one write. -/
theorem Sink.write_append (sink : Sink) (first second : List UInt8) :
    sink.write (first ++ second) =
      match sink.write first with
      | (some cause, sink) => (some cause, sink)
      | (none, sink) => sink.write second := by
  obtain ⟨_ | limit, flushFault, written⟩ := sink
  · simp [write, List.reverseAux_eq]
  · -- What does not fit of the first write leaves no room for the second.
    by_cases fits : first.length ≤ limit.room
    · have taken : (first ++ second).take limit.room =
          first ++ second.take (limit.room - first.length) := by
        rw [List.take_append, List.take_of_length_le fits]
      have both : first.length + second.length ≤ limit.room ↔
          second.length ≤ limit.room - first.length := by omega
      simp [write, fits, taken, both, List.reverseAux_eq, Nat.sub_sub, List.take_of_length_le fits]
    · have taken : (first ++ second).take limit.room = first.take limit.room :=
        List.take_append_of_le_length (by omega)
      have neither : ¬first.length + second.length ≤ limit.room := by omega
      have full : limit.room - (first.length + second.length) = limit.room - first.length := by
        omega
      simp [write, fits, taken, neither, full]

/-- A write that fits is taken whole. -/
theorem Sink.write_of_fits (fits : ∀ limit ∈ sink.limit, bytes.length ≤ limit.room) :
    ∃ sink', sink.write bytes = (none, sink') ∧ sink'.output = sink.output ++ bytes ∧
      sink'.flushFault = sink.flushFault := by
  refine ⟨(sink.write bytes).2, ?_, ?_, ?_⟩
  all_goals cases h : sink.limit with
    | none => simp [write, h, output, List.reverseAux_eq]
    | some limit =>
      simp [write, h, output, fits limit h, List.reverseAux_eq, List.take_of_length_le]

/-- A write that does not fit is taken as far as there is room. -/
theorem Sink.write_of_overflow (limited : sink.limit = some limit)
    (overflow : limit.room < bytes.length) :
    ∃ sink', sink.write bytes = (some limit.cause, sink') ∧
      sink'.output = sink.output ++ bytes.take limit.room := by
  refine ⟨(sink.write bytes).2, ?_, output_write_of_limited limited bytes⟩
  simp [write, limited, Nat.not_le_of_lt overflow]

end Writes

/-- The answers to some texts, each with a line feed. -/
def Session.transcript (session : Session) (texts : List String) : List UInt8 :=
  texts.flatMap fun text => utf8Encode (session.answer text ++ "\n")

section Runs

variable {session : Session} {source : Source} {sink : Sink} {fault cause : Option String}
  {contents lines : List (List UInt8)} {last : List UInt8} {texts : List String}

/-- The writes of a session are one write of its transcript. If that goes well, the session stops at
what cannot be read. -/
theorem Session.feed_of_legible (legible : Legible fault contents texts cause) (sink : Sink) :
    session.feed sink (contents.map readLine ++ fault.toList.map .error) =
      match sink.write (session.transcript texts) with
      | (some cause, sink) => (some (.writing cause), sink)
      | (none, sink) => (cause.map .reading, sink) := by
  induction legible generalizing sink with
  | nil => cases fault <;> simp [transcript, Sink.write_nil, feed]
  | invalid invalid => simp [transcript, Sink.write_nil, readLine, invalid, feed]
  | @cons line rest text texts cause valid _ ih =>
    rw [transcript, List.flatMap_cons, ← transcript, Sink.write_append, List.map_cons, readLine,
      valid, List.cons_append, feed]
    -- A write that fails ends the session, and it ends the write of the transcript as well.
    rcases sink.write (utf8Encode (session.answer text ++ "\n")) with ⟨_ | cause, sink'⟩
    · exact ih sink'
    · rfl

/-- If there is room for the transcript, a session writes all of it. -/
theorem run_of_fits (split : LineSplit source.bytes lines last)
    (legible : Legible source.fault (source.contents lines last) texts cause)
    (fits : ∀ limit ∈ sink.limit, (session.transcript texts).length ≤ limit.room) :
    session.run source sink = ⟨sink.output ++ session.transcript texts,
      (cause.map .reading).or (sink.flushFault.map .flushing)⟩ := by
  obtain ⟨sink', written, output, flushFault⟩ := Sink.write_of_fits fits
  rw [Session.run, Source.readings_eq split, Session.feed_of_legible legible sink, written]
  cases cause <;> simp [output, flushFault]

/-- If there is not, it writes as much as there is room for. -/
theorem run_of_overflow {limit : Limit} (split : LineSplit source.bytes lines last)
    (legible : Legible source.fault (source.contents lines last) texts cause)
    (limited : sink.limit = some limit)
    (overflow : limit.room < (session.transcript texts).length) :
    session.run source sink = ⟨sink.output ++ (session.transcript texts).take limit.room,
      some (.writing limit.cause)⟩ := by
  obtain ⟨sink', written, output⟩ := Sink.write_of_overflow limited overflow
  rw [Session.run, Source.readings_eq split, Session.feed_of_legible legible sink, written]
  simp [output]

/-- **What a session leaves behind under faults.** The source has one division into lines, and one
list of texts in front of the first line that cannot be read. If their transcript is longer than the
room in the sink, as much of it is written as there is room for, and that is the failure, whatever
else is wrong. Otherwise all of it is written, and the failure is the line that cannot be read if
there is one, and else that of the flush. A text is answered with the reply to its statement, or with
the texts of its tokens between blanks. -/
theorem run_eq_of_legible :
    (∀ (session : Session) (source : Source) (sink : Sink) (lines : List (List UInt8))
        (last : List UInt8) (texts : List String) (cause : Option String),
      LineSplit source.bytes lines last →
      Legible source.fault (source.contents lines last) texts cause →
      (∀ limit ∈ sink.limit, limit.room < (session.transcript texts).length →
        session.run source sink = ⟨sink.output ++ (session.transcript texts).take limit.room,
          some (.writing limit.cause)⟩) ∧
      ((∀ limit ∈ sink.limit, (session.transcript texts).length ≤ limit.room) →
        session.run source sink = ⟨sink.output ++ session.transcript texts,
          (cause.map .reading).or (sink.flushFault.map .flushing)⟩)) ∧
    (∀ bytes, ∃ lines last, LineSplit bytes lines last ∧
      ∀ lines' last', LineSplit bytes lines' last' → lines' = lines ∧ last' = last) ∧
    (∀ fault contents, ∃ texts cause, Legible fault contents texts cause ∧
      ∀ texts' cause', Legible fault contents texts' cause' → texts' = texts ∧ cause' = cause) ∧
    (∀ cause, (Failure.writing cause).chain = ["failed to write output", cause] ∧
      (Failure.reading cause).chain = ["failed to read input", cause] ∧
      (Failure.flushing cause).chain = ["failed to flush output", cause]) ∧
    ∀ strictness texts,
      Session.transcript ⟨.statement, strictness⟩ texts = texts.flatMap (fun text =>
        utf8Encode (Statement.reply (Statement.parse strictness text) ++ "\n")) ∧
      Session.transcript ⟨.tokens, strictness⟩ texts = texts.flatMap fun text =>
        utf8Encode (" ".intercalate ((tokens text).map Token.text) ++ "\n") := by
  refine ⟨fun session source sink lines last texts cause split legible => ⟨?_, ?_⟩,
    existsUnique_lineSplit, existsUnique_legible, fun cause => ⟨rfl, rfl, rfl⟩,
    fun strictness texts => ⟨rfl, rfl⟩⟩
  · intro limit limited overflow
    exact run_of_overflow split legible limited overflow
  · intro fits
    exact run_of_fits split legible fits

/-- A line that is not UTF-8 behind one that is answered with two bytes: with room for one byte the
fault of the sink is met first, with room for two that of the line. -/
theorem run_eq_of_legible_invalid :
    let source : Source := ⟨[0x78, 0x0D, 0x0A, 0xFF, 0x0A, 0x79], some "gone"⟩
    LineSplit source.bytes [[0x78, 0x0D], [0xFF]] [0x79] ∧
    Legible source.fault (source.contents [[0x78, 0x0D], [0xFF]] [0x79]) ["x"] (some invalidText) ∧
    Session.run {} source ⟨some ⟨1, "full"⟩, some "stuck", []⟩ = ⟨[0x78], some (.writing "full")⟩ ∧
    Session.run {} source ⟨some ⟨2, "full"⟩, some "stuck", []⟩ =
      ⟨[0x78, 0x0A], some (.reading invalidText)⟩ := by
  intro source
  have split : LineSplit source.bytes [[0x78, 0x0D], [0xFF]] [0x79] :=
    ⟨by decide, by decide, by decide⟩
  have legible : Legible source.fault (source.contents [[0x78, 0x0D], [0xFF]] [0x79]) ["x"]
      (some invalidText) :=
    .cons (utf8Decode?_utf8Encode "x") (.invalid (by decide +kernel))
  have transcript : Session.transcript {} ["x"] = [0x78, 0x0A] := by decide +kernel
  obtain ⟨outcome, _⟩ := run_eq_of_legible
  refine ⟨split, legible, ?_, ?_⟩
  · have overflow :=
      (outcome {} source ⟨some ⟨1, "full"⟩, some "stuck", []⟩ _ _ _ _ split legible).1
    simpa [transcript, Sink.output] using overflow
  · have fits := (outcome {} source ⟨some ⟨2, "full"⟩, some "stuck", []⟩ _ _ _ _ split legible).2
    simpa [transcript, Sink.output] using fits

end Runs

end Formula
