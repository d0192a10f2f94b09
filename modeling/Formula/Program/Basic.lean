import Formula.Session.Basic

/-!
# The program

The arguments of the program only select a session, and the source that it reads. Reading them is
left to a library, and so is describing a failure; both are parameters here. Of the library that
reads arguments it is taken for granted that it goes through them from left to right, and that the
first one that asks for help or for the version, or that it does not accept, ends the program.

## Main definitions

* `Flag`, `Options` — what arguments can choose
* `Options.session`, `Options.source` — the session and the source that options select
* `Report` — exit code, standard output and standard error
* `ArgumentReader`, `ArgumentReader.read` — reading arguments from left to right
* `ArgumentReader.Documented`, `Program.Documented` — what is known of the libraries
* `Program`, `Program.run` — what a program does with its arguments
-/

namespace Formula

/-- The flags that choose options. -/
inductive Flag where
  | lenient
  | tokens
deriving DecidableEq, Repr

/-- How a flag is written. -/
def Flag.name : Flag → String
  | lenient => "--lenient"
  | tokens => "--tokens"

/-- The options of a run. -/
structure Options where
  lenient : Bool := false
  tokens : Bool := false
  /-- The file to read; without one, standard input is read. -/
  path : Option String := none
deriving DecidableEq, Repr

namespace Options

/-- Has the flag been given? -/
def has (options : Options) : Flag → Bool
  | .lenient => options.lenient
  | .tokens => options.tokens

/-- The options with a flag. -/
def withFlag (options : Options) : Flag → Options
  | .lenient => { options with lenient := true }
  | .tokens => { options with tokens := true }

/-- The options with a path. -/
def withPath (options : Options) (path : String) : Options := { options with path := some path }

/-- The session that the options select. -/
def session (options : Options) : Session where
  mode := if options.tokens then .tokens else .statement
  strictness := if options.lenient then .lenient else .strict

/-- The source that the options select. A path is opened, and that gives a source, or the reason why
there is none. -/
def source (openPath : String → Except String Source) (stdin : Source) (options : Options) :
    Except Failure Source :=
  match options.path with
  | none => .ok stdin
  | some path => (openPath path).mapError (.opening path)

end Options

/-- The result of a program. -/
structure Report where
  code : Nat
  stdout : List UInt8
  stderr : String
deriving DecidableEq, Repr

/-! ### Arguments -/

/-- An argument, which can be any bytes. -/
abbrev Argument := List UInt8

/-- The argument behind which there are only paths. -/
def dashes : Argument := utf8Encode "--"

/-- Can the path be told from an option where options may stand? -/
def IsPlainPath (path : String) : Prop := path = "-" ∨ path.toList.head? ≠ some '-'

instance (path : String) : Decidable (IsPlainPath path) := inferInstanceAs (Decidable (_ ∨ _))

/-- A reader of arguments. It takes one argument after the other, from left to right, up to the
first one that ends the program. All arguments can be left out, so none is missed at the end. -/
structure ArgumentReader where
  /-- What is kept of the arguments that have been read. -/
  State : Type
  start : State
  /-- Reads one more argument, or reports and ends. -/
  step : State → Argument → Except Report State
  /-- The options that are chosen if no argument follows. -/
  options : State → Options
  /-- Are all arguments that follow paths? -/
  pathsOnly : State → Bool

namespace ArgumentReader

/-- The options that arguments choose, or the report of the first one that ends the program. -/
def read (reader : ArgumentReader) (arguments : List Argument) : Except Report Options :=
  (arguments.foldlM reader.step reader.start).map reader.options

/-- Does the argument lead on from the state, to the given options? -/
def Accepts (reader : ArgumentReader) (state : reader.State) (argument : Argument)
    (options : Options) (pathsOnly : Bool) : Prop :=
  ∃ next, reader.step state argument = .ok next ∧ reader.options next = options ∧
    reader.pathsOnly next = pathsOnly

/-- What is known of the single steps of a reader. Which arguments end the program, and how that is
reported, is up to the reader. -/
structure Documented (reader : ArgumentReader) : Prop where
  options_start : reader.options reader.start = {}
  pathsOnly_start : reader.pathsOnly reader.start = false
  /-- A flag is set when it is given for the first time. -/
  accepts_flag {state : reader.State} {flag : Flag} : reader.pathsOnly state = false →
    (reader.options state).has flag = false →
    reader.Accepts state (utf8Encode flag.name) ((reader.options state).withFlag flag) false
  /-- The first path is kept. Only behind the `--` it can look like an option. -/
  accepts_path {state : reader.State} {path : String} : (reader.options state).path = none →
    reader.pathsOnly state = true ∨ IsPlainPath path →
    reader.Accepts state (utf8Encode path) ((reader.options state).withPath path)
      (reader.pathsOnly state)
  /-- The first `--` chooses nothing. -/
  accepts_dashes {state : reader.State} : reader.pathsOnly state = false →
    reader.Accepts state dashes (reader.options state) true

end ArgumentReader

/-! ### Programs -/

/-- The libraries that a program is made with. -/
structure Program where
  reader : ArgumentReader
  /-- Describes a failure, given its report with the outermost part first. -/
  describe : List String → String

namespace Program

/-- What is known of the libraries. -/
structure Documented (program : Program) : Prop where
  reader : program.reader.Documented
  /-- A failure with a cause of one line is described by what was being done and by the cause. -/
  describe_pair {context cause : String} : '\n' ∉ cause.toList →
    program.describe [context, cause] = context ++ "\n\nCaused by:\n    " ++ cause

/-- The report on what a session leaves behind. -/
def report (program : Program) (outcome : Outcome) : Report :=
  match outcome.failure with
  | none => ⟨0, outcome.output, ""⟩
  | some failure => ⟨1, outcome.output, "Error: " ++ program.describe failure.chain ++ "\n"⟩

/-- The report on a session over a source, or on the failure to get one. -/
def reportOn (program : Program) (session : Session) : Except Failure Source → Report
  | .ok source => program.report (session.run source {})
  | .error failure => program.report ⟨[], some failure⟩

/-- What a program does with its arguments. -/
def run (program : Program) (openPath : String → Except String Source) (stdin : Source)
    (arguments : List Argument) : Report :=
  match program.reader.read arguments with
  | .error report => report
  | .ok options => program.reportOn options.session (options.source openPath stdin)

end Program

end Formula
