import Formula.Reader.Basic

/-!
# All tokens of a text

Reading a text to its end gives a list of tokens that ends with the first stop: the end of the text
or an unreadable character.

## Main definitions

* `TokenRun` — the tokens still to come
* `TokenRun.next?` — the next of them, if the stop has not been reached
* `TokenRun.drain` — all of them, and the run that is left
* `Reader.tokens`, `tokens` — the tokens from a reader's place on, and those of a text
-/

namespace Formula

/-- The tokens a reader still gives, up to and including the first stop. -/
structure TokenRun where
  reader : Reader
  /-- Has the stop been given? -/
  finished : Bool

namespace TokenRun

/-- The next token, and the run behind it. -/
def next? (run : TokenRun) : Option (Token × TokenRun) :=
  if run.finished then none
  else
    let (token, reader) := run.reader.next
    some (token, ⟨reader, token.isStop⟩)

/-- All tokens to come, and the run behind the last of them. -/
def drain (run : TokenRun) : List Token × TokenRun :=
  if run.finished then ([], run)
  else
    if _ : run.reader.next.1.isStop then ([run.reader.next.1], ⟨run.reader.next.2, true⟩)
    else
      let (tokens, last) := drain ⟨run.reader.next.2, false⟩
      (run.reader.next.1 :: tokens, last)
termination_by run.reader.unread.length
decreasing_by exact length_scan_lt (Bool.eq_false_iff.mpr ‹_›)

end TokenRun

/-- The tokens from the reader's place on, up to and including the first stop. -/
def Reader.tokens (r : Reader) : List Token := (TokenRun.mk r false).drain.1

/-- The tokens of a text. -/
def tokens (text : String) : List Token := (Reader.ofString text).tokens

end Formula
