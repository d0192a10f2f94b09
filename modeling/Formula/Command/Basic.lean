import Formula.Command.Arguments
import Formula.Command.Folder

/-!
# The command

The outer layer: a program with a reader of arguments and a description of failures of its own, in a
folder of files. What is proved of programs is proved of all of them, and this is one.

## Main definitions

* `Command.describe` — how a failure is described
* `Command.program` — the program
* `Command.run` — what a command line does in a folder
-/

namespace Formula.Command

/-- Describes a failure that has a cause of one line. -/
def describe (chain : List String) : String := "\n\nCaused by:\n    ".intercalate chain

/-- The program. -/
def program : Program where
  reader := argumentReader
  describe := describe

/-- What a command line does in a folder, with the given standard input. -/
def run (arguments : List String) (folder : Folder) (stdin : List UInt8) : Report :=
  program.run folder.openSource ⟨stdin, none⟩ (arguments.map utf8Encode)

end Formula.Command
