import Formula.Reader.Tokens

/-!
# Scripts over several readers

A desk holds readers of several texts and one list of marks, which are byte offsets saved from any
of the readers and usable with any other. A script is a list of steps, each with its answer.

## Main definitions

* `ReaderDesk` — the readers and the marks
* `ReaderStep`, `ReaderAnswer` — a step of a script and what it answers
* `ReaderDesk.perform` — one step
* `ReaderDesk.run` — a whole script
-/

namespace Formula

/-- Readers of several texts, with the offsets saved from them. -/
structure ReaderDesk where
  readers : List Reader
  marks : List Nat := []

/-- One step of a script. Readers and marks are numbered from zero. -/
inductive ReaderStep where
  /-- Reads a token. -/
  | next (reader : Nat)
  /-- Reads a token and asks whether it is a symbol from a set. -/
  | nextIn (reader : Nat) (set : String)
  /-- Tells where the reader stands. -/
  | offset (reader : Nat)
  /-- Saves where the reader stands. -/
  | save (reader : Nat)
  /-- Moves the reader to a saved offset. -/
  | restore (reader mark : Nat)
  /-- Compares two saved offsets. -/
  | same (mark other : Nat)
  /-- Reads all tokens to the first stop, and then asks for one more. -/
  | drain (reader : Nat)
deriving DecidableEq, Repr

/-- What a step answers; `position` is where its reader stands afterwards. -/
inductive ReaderAnswer where
  | token (token : Token) (position : Nat)
  | membership (token : Token) (holds : Bool) (position : Nat)
  | offset (position : Nat)
  | saved (mark position : Nat)
  | restored (exact : Bool) (position : Nat)
  | same (holds : Bool)
  | drained (tokens : List Token) (more : Option Token)
deriving DecidableEq, Repr

namespace ReaderDesk

/-- A desk with a reader at the start of each text. -/
def ofTexts (texts : List String) : ReaderDesk := { readers := texts.map Reader.ofString }

/-- The desk with one reader replaced. -/
def setReader (desk : ReaderDesk) (i : Nat) (r : Reader) : ReaderDesk :=
  { desk with readers := desk.readers.set i r }

/-- Performs one step. There is no answer if the step names a reader or a mark that is not there. -/
def perform (desk : ReaderDesk) : ReaderStep → Option (ReaderAnswer × ReaderDesk)
  | .next i => do
    let (token, r) := (← desk.readers[i]?).next
    return (.token token r.offset, desk.setReader i r)
  | .nextIn i set => do
    let (token, r) := (← desk.readers[i]?).next
    return (.membership token (token.isSymbolIn set) r.offset, desk.setReader i r)
  | .offset i => do
    let r ← desk.readers[i]?
    return (.offset r.offset, desk)
  | .save i => do
    let r ← desk.readers[i]?
    return (.saved desk.marks.length r.offset, { desk with marks := desk.marks ++ [r.offset] })
  | .restore i k => do
    let mark ← desk.marks[k]?
    let r := (← desk.readers[i]?).seek mark
    return (.restored (r.offset == mark) r.offset, desk.setReader i r)
  | .same j k => do
    return (.same ((← desk.marks[j]?) == (← desk.marks[k]?)), desk)
  | .drain i => do
    let (tokens, last) := (TokenRun.mk (← desk.readers[i]?) false).drain
    return (.drained tokens (last.next?.map (·.1)), desk.setReader i last.reader)

/-- Performs a script and gives the answers in order, with the desk as the script leaves it. -/
def run (desk : ReaderDesk) : List ReaderStep → Option (List ReaderAnswer × ReaderDesk)
  | [] => some ([], desk)
  | step :: steps => do
    let (answer, desk) ← desk.perform step
    let (answers, desk) ← desk.run steps
    return (answer :: answers, desk)

end ReaderDesk

end Formula
