/-!
# Text without control sequences

A text from outside can hold control characters, and with them sequences that a terminal obeys
instead of showing them. Such a sequence begins with an escape character, and what follows decides
how long it is. Plain text is what is left without them; of the control characters it keeps the
blank ones.

## Main definitions

* `isVisible` — is a character shown where no sequence is open?
* `ControlSequence` — the kinds of sequences, by what has been read of them
* `ControlMode`, `ControlMode.step` — where a text stands, and what one more character does
* `plainText` — a text without its control characters and control sequences
-/

namespace Formula.Command

/-- The control characters that are shown, as blank space. -/
def isBlankControl (c : Char) : Bool := c == '\t' || c == '\n' || c == '\x0C' || c == '\r'

/-- Is the character shown where no sequence is open? Beyond ASCII every character is. -/
def isVisible (c : Char) : Bool :=
  isBlankControl c || (decide (0x20 ≤ c.toNat) && c != '\x7F')

/-- A sequence that has begun and not ended, by what has been read of it. -/
inductive ControlSequence where
  /-- An escape character. -/
  | escape
  /-- An escape character and intermediate characters. -/
  | escapeIntermediate
  /-- A control sequence, up to its final character. -/
  | control
  /-- An operating system command, which a bell ends. -/
  | command
  /-- The begin of a device control string. -/
  | device
  /-- The parameters of a device control string. -/
  | deviceParameter
  /-- The intermediate characters of a device control string. -/
  | deviceIntermediate
  /-- A string that nobody reads, up to its terminator. -/
  | string
deriving DecidableEq, Repr

/-- Where a text stands: outside of all sequences, inside one, or at visible characters that
interrupt one. -/
inductive ControlMode where
  | outside
  | inside (sequence : ControlSequence)
  | interrupted (sequence : ControlSequence)
deriving DecidableEq, Repr

namespace ControlSequence

/-- Are control characters obeyed within the sequence? A blank one then interrupts it. -/
def obeysControls : ControlSequence → Bool
  | escape | escapeIntermediate | control => true
  | _ => false

/-- Does the character end a string? The terminator is the byte `9C`, which also counts as a part
of a longer character. -/
def isTerminator (c : Char) : Bool := (String.utf8EncodeChar c).contains 0x9C

/-- What follows the character behind an escape character. -/
def ofIntroducer (c : Char) : ControlMode :=
  match c with
  | '[' => .inside control
  | ']' => .inside command
  | 'P' => .inside device
  | 'X' | '^' | '_' => .inside string
  | _ =>
    if ' ' ≤ c ∧ c ≤ '/' then .inside escapeIntermediate
    else if '0' ≤ c ∧ c ≤ '~' then .outside
    else .inside escape

/-- What follows a character within the sequence. -/
def next (sequence : ControlSequence) (c : Char) : ControlMode :=
  match sequence with
  | escape => ofIntroducer c
  | escapeIntermediate => if '0' ≤ c ∧ c ≤ '~' then .outside else .inside escapeIntermediate
  | control => if '@' ≤ c ∧ c ≤ '~' then .outside else .inside control
  | command => if c = '\x07' then .outside else .inside command
  | device =>
    if ' ' ≤ c ∧ c ≤ '/' then .inside deviceIntermediate
    else if '0' ≤ c ∧ c ≤ '?' then .inside deviceParameter
    else if '@' ≤ c ∧ c ≤ '~' then .inside string
    else .inside device
  | deviceParameter =>
    if ' ' ≤ c ∧ c ≤ '/' then .inside deviceIntermediate
    else if '<' ≤ c ∧ c ≤ '~' then .inside string
    else .inside deviceParameter
  | deviceIntermediate =>
    if '0' ≤ c ∧ c ≤ '~' then .inside string else .inside deviceIntermediate
  | string => if isTerminator c then .outside else .inside string

end ControlSequence

namespace ControlMode

/-- Is the next character shown, and where does the text stand behind it? An escape character begins
a sequence anywhere, and a cancel or substitute character ends one anywhere. An interrupted sequence
goes on at the next control character that is not shown, and it is given up at the first character
beyond ASCII. -/
def step (mode : ControlMode) (c : Char) : Bool × ControlMode :=
  if c = '\x1B' then (false, .inside .escape)
  else if c = '\x18' ∨ c = '\x1A' then (false, .outside)
  else
    match mode with
    | outside => (isVisible c, .outside)
    | inside sequence =>
      if sequence.obeysControls && isBlankControl c then (true, .interrupted sequence)
      else (false, sequence.next c)
    | interrupted sequence =>
      if !isVisible c then (false, .inside sequence)
      else (true, if c.toNat < 0x80 then .interrupted sequence else .outside)

end ControlMode

/-- The characters that are shown of a text that begins in the given mode. -/
def visibleChars (mode : ControlMode) : List Char → List Char
  | [] => []
  | c :: cs =>
    match mode.step c with
    | (true, next) => c :: visibleChars next cs
    | (false, next) => visibleChars next cs

/-- The text without its control characters and control sequences. -/
def plainText (text : String) : String := String.ofList (visibleChars .outside text.toList)

end Formula.Command
