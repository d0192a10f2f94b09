import Formula.Session.Failure
import Formula.Session.Sink
import Formula.Session.Source
import Formula.Statement.Parse

/-!
# Sessions

A session answers every line of a source with one line in a sink. A line that is no statement is
answered like any other; only a fault of the source or of the sink ends the session early, and then
nothing is flushed.

## Main definitions

* `Session` — what is printed for a line
* `Session.answer` — the answer to one line
* `Session.run` — the output and the failure of a whole session
-/

namespace Formula

/-- What a session prints for a line. -/
inductive Mode where
  /-- The statement of the line. -/
  | statement
  /-- The tokens of the line. -/
  | tokens
deriving DecidableEq, Repr

/-- How lines are answered. -/
structure Session where
  mode : Mode := .statement
  strictness : Strictness := .strict
deriving DecidableEq, Repr

/-- What a session leaves behind. -/
structure Outcome where
  output : List UInt8
  failure : Option Failure
deriving DecidableEq, Repr

namespace Session

/-- The answer to one line. -/
def answer (session : Session) (line : String) : String :=
  match session.mode with
  | .statement => Statement.reply (Statement.parse session.strictness line)
  | .tokens => " ".intercalate ((Formula.tokens line).map Token.text)

/-- Writes an answer for each line, in order, up to the first failure. -/
def feed (session : Session) (sink : Sink) : List (Except String String) → Option Failure × Sink
  | [] => (none, sink)
  | .error cause :: _ => (some (.reading cause), sink)
  | .ok line :: rest =>
    match sink.write (utf8Encode (session.answer line ++ "\n")) with
    | (some cause, sink) => (some (.writing cause), sink)
    | (none, sink) => session.feed sink rest

/-- Answers every line of the source, and flushes the sink if that went well. -/
def run (session : Session) (source : Source) (sink : Sink) : Outcome :=
  match session.feed sink source.readings with
  | (some failure, sink) => ⟨sink.output, some failure⟩
  | (none, sink) => ⟨sink.output, sink.flushFault.map .flushing⟩

end Session

end Formula
