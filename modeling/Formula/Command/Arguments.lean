import Formula.Command.Control
import Formula.Program.Basic

/-!
# The reader of arguments

How the outer layer reads its arguments. The first one that asks for help or for the version, or
that is not understood, decides; otherwise the arguments choose the options of a run.

## Main definitions

* `LongOption` — the long options
* `UsageError` — why arguments are not understood
* `Decision` — what arguments can ask for in place of a session
* `Scan`, `Scan.step` — the arguments read so far, and one more of them
* `argumentReader` — the reader that is made of these steps
-/

namespace Formula.Command

/-- The long options. -/
inductive LongOption where
  | flag (flag : Flag)
  | help
  | version
deriving DecidableEq, Repr

namespace LongOption

/-- How a long option is written. -/
def name : LongOption → String
  | flag chosen => chosen.name
  | help => "--help"
  | version => "--version"

/-- The long option with the given spelling. -/
def ofName? (text : String) : Option LongOption :=
  [flag .lenient, flag .tokens, help, version].find? fun option => option.name == text

end LongOption

/-- Why arguments are not understood. -/
inductive UsageError where
  /-- There is no place for the argument. -/
  | unexpected (argument : String)
  /-- The flag was given before. -/
  | repeated (flag : Flag)
  /-- The option takes no value. -/
  | unexpectedValue (option : LongOption) (value : String)
  /-- The argument is not UTF-8. -/
  | noText
deriving DecidableEq, Repr

/-- The first line of the report of a usage error. It repeats only the plain text of an argument, so
that no argument gives orders to a terminal; a sequence that is still open at the end of an argument
ends there. -/
def UsageError.message : UsageError → String
  | unexpected argument => "error: unexpected argument '" ++ plainText argument ++ "' found"
  | repeated flag => "error: the argument '" ++ flag.name ++ "' cannot be used multiple times"
  | unexpectedValue option value =>
    "error: unexpected value '" ++ plainText value ++ "' for '" ++ option.name ++
      "' found; no more were expected"
  | noText => "error: invalid UTF-8 was detected in one or more arguments"

/-- How the program is called. -/
def usage : String := "Usage: arith [OPTIONS] [PATH]"

/-- The lines that explain the command line. -/
def helpLines : List String := [
  "Parses assignments and arithmetic expressions, one per line",
  "",
  usage,
  "",
  "Arguments:",
  "  [PATH]  File to read lines from instead of stdin",
  "",
  "Options:",
  "      --lenient  Ignore anything left on a line after a successful parse",
  "      --tokens   Print each line's tokens instead of its syntax tree",
  "  -h, --help     Print help",
  "  -V, --version  Print version"]

/-- What arguments can ask for in place of a session. -/
inductive Decision where
  | help
  | version
  | refused (error : UsageError)
deriving DecidableEq, Repr

/-- The report of a decision. What might have been meant in place of a refused argument is not
guessed. -/
def Decision.report : Decision → Report
  | help => ⟨0, utf8Encode (String.join (helpLines.map (· ++ "\n"))), ""⟩
  | version => ⟨0, utf8Encode "arith 0.1.0\n", ""⟩
  | refused error =>
    ⟨2, [], error.message ++ "\n\n" ++ usage ++ "\n\nFor more information, try '--help'.\n"⟩

/-- The options chosen so far, and whether all arguments that follow are paths. -/
structure Scan where
  options : Options := {}
  pathsOnly : Bool := false
deriving DecidableEq, Repr

namespace Scan

/-- A path may be given once. -/
def withPath (scan : Scan) (path : String) : Except Decision Scan :=
  match scan.options.path with
  | none => .ok { scan with options := scan.options.withPath path }
  | some _ => .error (.refused (.unexpected path))

/-- Each flag may be given once. -/
def withFlag (scan : Scan) (flag : Flag) : Except Decision Scan :=
  if scan.options.has flag then .error (.refused (.repeated flag))
  else .ok { scan with options := scan.options.withFlag flag }

/-- A long option. What follows the first equals sign is its value, and no long option takes one. -/
def withLong (scan : Scan) (argument : String) : Except Decision Scan :=
  let name := String.ofList (argument.toList.takeWhile (· ≠ '='))
  match LongOption.ofName? name, argument.toList.dropWhile (· ≠ '=') with
  | none, _ => .error (.refused (.unexpected name))
  | some option, _ :: value =>
    .error (.refused (.unexpectedValue option (String.ofList value)))
  | some (.flag flag), [] => scan.withFlag flag
  | some .help, [] => .error .help
  | some .version, [] => .error .version

/-- What is asked for by a cluster of short options. Its first character decides, since no short
option leaves anything to the next one. -/
def ofShort (first : Char) : Decision :=
  match first with
  | 'h' => .help
  | 'V' => .version
  | c => .refused (.unexpected (String.ofList ['-', c]))

/-- One more argument that is a text. A lone `-` is a path. -/
def withText (scan : Scan) (argument : String) : Except Decision Scan :=
  if scan.pathsOnly then scan.withPath argument
  else
    match argument.toList with
    | ['-', '-'] => .ok { scan with pathsOnly := true }
    | '-' :: '-' :: _ => scan.withLong argument
    | '-' :: c :: _ => .error (ofShort c)
    | _ => scan.withPath argument

/-- One more argument. -/
def step (scan : Scan) (argument : Argument) : Except Decision Scan :=
  match utf8Decode? argument with
  | some text => scan.withText text
  | none => .error (.refused .noText)

end Scan

/-- The reader of arguments. -/
abbrev argumentReader : ArgumentReader where
  State := Scan
  start := {}
  step scan argument := (scan.step argument).mapError Decision.report
  options := Scan.options
  pathsOnly := Scan.pathsOnly

end Formula.Command
