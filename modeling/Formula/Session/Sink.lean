import Formula.Text.Utf8

/-!
# Sinks

A sink collects the bytes written to it. One with a limit takes as many bytes as it has room for,
and a write that does not fit fails after the part that fits.

## Main definitions

* `Sink` — the bytes written, and what further writes meet
* `Sink.write` — one write
* `Sink.output` — all that was written

## Main results

* `Sink.output_write_of_limited` — what a write adds to a sink with a limit
-/

namespace Formula

/-- How much a sink still takes, and how a write that does not fit fails. -/
structure Limit where
  room : Nat
  cause : String
deriving DecidableEq, Repr

/-- The receiver of the output. -/
structure Sink where
  limit : Option Limit := none
  /-- How the final flush fails, if it does. -/
  flushFault : Option String := none
  /-- The bytes written so far, the latest first. -/
  written : List UInt8 := []
deriving DecidableEq, Repr

namespace Sink

/-- The bytes written so far. -/
def output (sink : Sink) : List UInt8 := sink.written.reverse

/-- Writes bytes as far as there is room. The cause of the failure comes with the sink if there is
not room for all of them. -/
def write (sink : Sink) (bytes : List UInt8) : Option String × Sink :=
  match sink.limit with
  | none => (none, { sink with written := bytes.reverseAux sink.written })
  | some limit =>
    (if bytes.length ≤ limit.room then none else some limit.cause,
      { sink with
        limit := some { limit with room := limit.room - bytes.length }
        written := (bytes.take limit.room).reverseAux sink.written })

theorem output_write_of_limited {sink : Sink} {limit : Limit} (h : sink.limit = some limit)
    (bytes : List UInt8) :
    (sink.write bytes).2.output = sink.output ++ bytes.take limit.room := by
  simp [write, output, h, List.reverseAux_eq]

end Sink

end Formula
