import Formula.Command.Basic

/-!
# The command-line program

Reads the arguments, the selected input and nothing else, and hands everything to the pure command.
-/

namespace Formula

/-- The system's report of an error, with its number. -/
def systemCause : IO.Error → String
  | .unexpectedEof => "unexpected end of file"
  | .userError details => details
  | .alreadyExists _ code details | .otherError code details | .resourceBusy code details
  | .resourceVanished code details | .unsupportedOperation code details
  | .hardwareFault code details | .unsatisfiedConstraints code details
  | .illegalOperation code details | .protocolError code details | .timeExpired code details
  | .interrupted _ code details | .noFileOrDirectory _ code details
  | .invalidArgument _ code details | .permissionDenied _ code details
  | .resourceExhausted _ code details | .inappropriateType _ code details
  | .noSuchThing _ code details => details ++ " (os error " ++ toString code ++ ")"

/-- Reads a stream to its end, or to the first fault. -/
partial def readSource (stream : IO.FS.Stream) (bytes : ByteArray) : IO Source := do
  try
    let chunk ← stream.read 65536
    if chunk.isEmpty then return ⟨bytes.toList, none⟩
    readSource stream (bytes ++ chunk)
  catch error => return ⟨bytes.toList, some (systemCause error)⟩

/-- Opens and reads the source that options select. -/
def selectSource (options : Options) : IO (Except Failure Source) := do
  match options.path with
  | none => return .ok (← readSource (← IO.getStdin) .empty)
  | some path =>
    try
      let handle ← IO.FS.Handle.mk path .read
      return .ok (← readSource (IO.FS.Stream.ofHandle handle) .empty)
    catch error => return .error (.opening path (systemCause error))

/-- Writes the report of a command, and gives its exit code. -/
def deliver (report : Report) : IO UInt32 := do
  try
    let stdout ← IO.getStdout
    stdout.write report.stdout.toByteArray
    stdout.flush
    IO.eprint report.stderr
    return UInt32.ofNat report.code
  catch error =>
    let failed := Command.program.report ⟨[], some (.writing (systemCause error))⟩
    IO.eprint failed.stderr
    return UInt32.ofNat failed.code

/-- Runs the command with the given arguments. -/
def runCommand (arguments : List String) : IO UInt32 := do
  match Command.program.reader.read (arguments.map utf8Encode) with
  | .error report => deliver report
  | .ok options =>
    let source ← selectSource options
    deliver (Command.program.reportOn options.session source)

end Formula

/-- Runs the command. -/
def main (arguments : List String) : IO UInt32 := Formula.runCommand arguments
