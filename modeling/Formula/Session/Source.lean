import Formula.Text.Utf8

/-!
# Sources of lines

A source is a sequence of bytes, and possibly a fault that is met behind the last of them in place
of the end. A line ends at a line feed, and a carriage return directly before that line feed is no
part of it. Bytes behind the last line feed form one more line, if there are any and no fault follows
them.

## Main definitions

* `Source` — bytes and what comes after them
* `Source.readings` — the lines of a source, each as its text or as the reason why it has none
-/

namespace Formula

/-- Bytes to be read, and what is met behind them. -/
structure Source where
  bytes : List UInt8
  /-- The fault that reading meets behind the last byte; without one, the bytes just end. -/
  fault : Option String := none
deriving DecidableEq, Repr

/-- Why a line that is not UTF-8 has no text. -/
def invalidText : String := "stream did not contain valid UTF-8"

/-- The bytes of a line without a carriage return at the end. -/
def dropReturn (line : List UInt8) : List UInt8 :=
  if line.getLast? = some 0x0D then line.dropLast else line

/-- The text of the bytes of a line. -/
def readLine (line : List UInt8) : Except String String :=
  match utf8Decode? line with
  | some text => .ok text
  | none => .error invalidText

namespace Source

/-- The lines that end with a line feed, without it, and the bytes behind the last of them. -/
def lines (source : Source) : List (List UInt8) × List UInt8 :=
  let pieces := source.bytes.splitOn 0x0A
  (pieces.dropLast, pieces.getLastD [])

/-- What is met behind the last line feed. -/
def ending (source : Source) : List (Except String String) :=
  match source.fault with
  | some cause => [.error cause]
  | none => if source.lines.2.isEmpty then [] else [readLine source.lines.2]

/-- What reading line by line gives, in order. -/
def readings (source : Source) : List (Except String String) :=
  source.lines.1.map (fun line => readLine (dropReturn line)) ++ source.ending

end Source

end Formula
