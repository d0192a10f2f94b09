import Formula.Proofs.Command.Reader
import Formula.Proofs.Program.Arguments
import Formula.Proofs.Session.Faults

/-!
# Arguments only select a session

What a program does with arguments that choose options depends on these options, and on the bytes
that it reads; where the bytes come from does not show. So a file and standard input with the same
bytes are reported on alike, by the session of the options. This is so for every reader of arguments
and every description of failures that keep to what is documented.

## Main results

* `Session.run_of_tokens` — sessions that print tokens do not depend on their strictness
* `Program.report_run` — the report of a session on bytes, by the lines that are not UTF-8
* `Program.run_of_writtenAs` — the report on arguments that choose options
* `command_selects_session` — arguments in any order, files and standard input, decided arguments
-/

namespace Formula

section Sessions

variable {session session' : Session} {contents last : List UInt8} {lines : List (List UInt8)}
variable {fault cause : Option String} {texts : List String}

/-- Sessions that answer lines alike write alike. -/
theorem Session.feed_congr (same : ∀ line, session.answer line = session'.answer line)
    (sink : Sink) (readings : List (Except String String)) :
    session.feed sink readings = session'.feed sink readings := by
  induction readings generalizing sink with
  | nil => rfl
  | cons reading readings ih =>
    cases reading with
    | error cause => rfl
    | ok line => simp only [feed, same, ih]

theorem Session.run_congr (same : ∀ line, session.answer line = session'.answer line)
    (source : Source) (sink : Sink) : session.run source sink = session'.run source sink := by
  simp only [run, feed_congr same]

/-- A session that prints tokens does not depend on its strictness. -/
theorem Session.run_of_tokens (tokens : session.mode = .tokens) (tokens' : session'.mode = .tokens)
    (source : Source) (sink : Sink) : session.run source sink = session'.run source sink :=
  run_congr (fun line => by simp only [answer, tokens, tokens']) source sink

/-- A line that is not UTF-8 is the only thing that can go wrong behind no fault. -/
theorem Legible.cause_eq {contents : List (List UInt8)}
    (legible : Legible fault contents texts cause) : cause = fault ∨ cause = some invalidText := by
  induction legible with
  | nil => exact Or.inl rfl
  | invalid _ => exact Or.inr rfl
  | cons _ _ ih => exact ih

/-- What is reported on a session: the answers to all texts that can be read, and the line that
cannot. -/
theorem Program.report_run (program : Program) (split : LineSplit contents lines last)
    (legible : Legible none (Source.contents ⟨contents, none⟩ lines last) texts cause) :
    program.report (session.run ⟨contents, none⟩ {}) =
      cause.elim ⟨0, session.transcript texts, ""⟩ fun cause =>
        ⟨1, session.transcript texts,
          "Error: " ++ program.describe (Failure.reading cause).chain ++ "\n"⟩ := by
  have outcome : session.run ⟨contents, none⟩ {} =
      ⟨session.transcript texts, cause.map .reading⟩ := by
    have run : session.run ⟨contents, none⟩ {} = _ := run_of_fits split legible (by simp)
    simpa [Sink.output] using run
  rw [outcome]
  cases cause <;> rfl

end Sessions

namespace Program

variable {program : Program} {options options' : Options} {arguments arguments' : List Argument}
variable {openPath : String → Except String Source} {stdin : Source}

/-- The report on arguments that choose options is that on the session of the options. -/
theorem run_of_writtenAs (documented : program.Documented) (written : options.WrittenAs arguments)
    (openPath : String → Except String Source) (stdin : Source) :
    program.run openPath stdin arguments =
      program.reportOn options.session (options.source openPath stdin) := by
  rw [run, written.read_eq documented.reader]

/-- A source that can be opened is reported on by the session of the options. -/
theorem run_of_file (documented : program.Documented) (written : options.WrittenAs arguments)
    {path : String} {source : Source} (isPath : options.path = some path)
    (opened : openPath path = .ok source) (stdin : Source) :
    program.run openPath stdin arguments = program.report (options.session.run source {}) := by
  have selected : options.source openPath stdin = .ok source := by
    simp only [Options.source, isPath, opened]
    rfl
  rw [run_of_writtenAs documented written, selected]
  rfl

/-- So is standard input. -/
theorem run_of_stdin (documented : program.Documented) (written : options.WrittenAs arguments)
    (noPath : options.path = none) (openPath : String → Except String Source) (stdin : Source) :
    program.run openPath stdin arguments = program.report (options.session.run stdin {}) := by
  have selected : options.source openPath stdin = .ok stdin := by
    simp only [Options.source, noPath]
  rw [run_of_writtenAs documented written, selected]
  rfl

/-- With `--tokens` in both, options with the same path are reported on alike. -/
theorem reportOn_of_tokens (tokens : options.tokens = true) (tokens' : options'.tokens = true)
    (source : Except Failure Source) :
    program.reportOn options.session source = program.reportOn options'.session source := by
  cases source with
  | error failure => rfl
  | ok source =>
    have same : options.session.run source {} = options'.session.run source {} :=
      Session.run_of_tokens (by simp [Options.session, tokens]) (by simp [Options.session, tokens'])
        source {}
    rw [reportOn, reportOn, same]

/-- Arguments that end the program do so whatever follows, and whatever there is to be read. -/
theorem run_append_of_error {front : List Argument} {report : Report}
    (ended : program.reader.read front = .error report) (more : List Argument)
    (openPath : String → Except String Source) (stdin : Source) :
    program.run openPath stdin (front ++ more) = report := by
  rw [run, ArgumentReader.read_append_of_error ended]

end Program

/-- **Arguments only select a session.** A program gives the options that its arguments are written
for, in whatever order. A file and standard input with the same bytes are reported on alike, by the
session that prints tokens if `--tokens` is given, and whose strictness `--lenient` chooses: with the
answers to all lines, or with those in front of a line that is not UTF-8 and then that failure. With
`--tokens` it does not matter whether `--lenient` is given. What arguments have decided otherwise
stays so, whatever arguments follow. -/
theorem command_selects_session {program : Program} (documented : program.Documented) :
    (∀ (options : Options) arguments, options.WrittenAs arguments →
      program.reader.read arguments = .ok options) ∧
    (∀ (options : Options) arguments arguments' openPath stdin, options.WrittenAs arguments →
      options.WrittenAs arguments' →
      program.run openPath stdin arguments = program.run openPath stdin arguments') ∧
    (∀ (options : Options) path arguments arguments' openPath openPath' stdin contents,
      options.path = some path → openPath path = .ok ⟨contents, none⟩ →
      options.WrittenAs arguments →
      Options.WrittenAs { options with path := none } arguments' →
      program.run openPath stdin arguments =
          program.report (options.session.run ⟨contents, none⟩ {}) ∧
        program.run openPath' ⟨contents, none⟩ arguments' =
          program.report (options.session.run ⟨contents, none⟩ {})) ∧
    (∀ options : Options, (options.session.mode = .tokens ↔ options.tokens = true) ∧
      (options.session.strictness = .lenient ↔ options.lenient = true)) ∧
    (∀ contents, ∃ lines last texts cause, LineSplit contents lines last ∧
      Legible none (Source.contents ⟨contents, none⟩ lines last) texts cause ∧
      ∀ session : Session,
        (cause = none ∧ program.report (session.run ⟨contents, none⟩ {}) =
            ⟨0, session.transcript texts, ""⟩) ∨
          cause = some invalidText ∧ program.report (session.run ⟨contents, none⟩ {}) =
            ⟨1, session.transcript texts, "Error: failed to read input\n\nCaused by:\n    " ++
              "stream did not contain valid UTF-8\n"⟩) ∧
    (∀ (options options' : Options) arguments arguments' openPath stdin, options.tokens = true →
      options'.tokens = true → options.path = options'.path → options.WrittenAs arguments →
      options'.WrittenAs arguments' →
      program.run openPath stdin arguments = program.run openPath stdin arguments') ∧
    ∀ front more report, program.reader.read front = .error report →
      program.reader.read (front ++ more) = .error report ∧
      ∀ openPath openPath' stdin stdin', program.run openPath stdin (front ++ more) = report ∧
        program.run openPath' stdin' front = report := by
  refine ⟨fun options arguments written => written.read_eq documented.reader, ?_, ?_, ?_, ?_, ?_,
    ?_⟩
  · intro options arguments arguments' openPath stdin written written'
    rw [Program.run_of_writtenAs documented written, Program.run_of_writtenAs documented written']
  · intro options path arguments arguments' openPath openPath' stdin contents isPath opened written
      written'
    exact ⟨Program.run_of_file documented written isPath opened stdin,
      Program.run_of_stdin documented written' rfl openPath' ⟨contents, none⟩⟩
  · intro options
    obtain ⟨_ | _, _ | _, path⟩ := options <;> simp [Options.session]
  · intro contents
    obtain ⟨lines, last, split, -⟩ := existsUnique_lineSplit contents
    obtain ⟨texts, cause, legible, -⟩ :=
      existsUnique_legible none (Source.contents ⟨contents, none⟩ lines last)
    refine ⟨lines, last, texts, cause, split, legible, fun session => ?_⟩
    have report : program.report (session.run ⟨contents, none⟩ {}) = _ :=
      program.report_run split legible
    rcases legible.cause_eq with rfl | rfl
    · exact Or.inl ⟨rfl, report⟩
    · have described : program.describe (Failure.reading invalidText).chain = _ :=
        documented.describe_pair (by decide)
      rw [Option.elim_some, described] at report
      exact Or.inr ⟨rfl, report⟩
  · intro options options' arguments arguments' openPath stdin tokens tokens' same written written'
    have selected : options.source openPath stdin = options'.source openPath stdin := by
      simp only [Options.source, same]
    rw [Program.run_of_writtenAs documented written, Program.run_of_writtenAs documented written',
      selected, Program.reportOn_of_tokens tokens tokens']
  · intro front more report ended
    refine ⟨ArgumentReader.read_append_of_error ended more,
      fun openPath openPath' stdin stdin' => ⟨Program.run_append_of_error ended more _ _, ?_⟩⟩
    simpa using Program.run_append_of_error ended [] openPath' stdin'

/-- A file whose name looks like an option, with a line that is not UTF-8 between two that are: it
is read behind a `--`, and the flags in front of that may come in any order. Behind `--version` even
bytes that are no text do not matter. -/
theorem command_selects_session_dashes :
    let contents : List UInt8 := [0x78, 0x0A, 0xFF, 0x0A, 0x79]
    let openPath := Folder.openSource ⟨[("-h", contents)]⟩
    let file : Options := ⟨false, true, some "-h"⟩
    let both : Options := ⟨true, true, some "-h"⟩
    let onFile := [utf8Encode "--tokens", dashes, utf8Encode "-h"]
    let onBoth := [utf8Encode "--tokens", utf8Encode "--lenient", dashes, utf8Encode "-h"]
    let onBoth' := [utf8Encode "--lenient", utf8Encode "--tokens", dashes, utf8Encode "-h"]
    let version := [utf8Encode "--lenient", utf8Encode "--version"]
    let run := fun stdin => Command.program.run openPath ⟨stdin, none⟩
    let report : Report := ⟨1, utf8Encode "x <end>\n", "Error: failed to read input\n\n" ++
      "Caused by:\n    stream did not contain valid UTF-8\n"⟩
    Command.program.Documented ∧ openPath "-h" = .ok ⟨contents, none⟩ ∧
    file.WrittenAs onFile ∧ Options.WrittenAs { file with path := none } [utf8Encode "--tokens"] ∧
    both.WrittenAs onBoth ∧ both.WrittenAs onBoth' ∧
    run [] onFile = report ∧ run contents [utf8Encode "--tokens"] = report ∧
    run [] onBoth = report ∧ run [] onBoth' = report ∧
    Command.program.reader.read version = .error ⟨0, utf8Encode "arith 0.1.0\n", ""⟩ ∧
    run [] (version ++ [[0xFF]]) = ⟨0, utf8Encode "arith 0.1.0\n", ""⟩ := by
  intro contents openPath file both onFile onBoth onBoth' version run report
  obtain ⟨-, inOrder, sources, -, -, tokens, decided⟩ :=
    command_selects_session Command.program_documented
  have opened : openPath "-h" = .ok ⟨contents, none⟩ := rfl
  have behind : file.WrittenAs onFile := @Options.WrittenAs.behind file [_] "-h" (.refl _) rfl
  have alone : Options.WrittenAs { file with path := none } [utf8Encode "--tokens"] :=
    .plain (.refl _) (by simp)
  have first : both.WrittenAs onBoth := @Options.WrittenAs.behind both [_, _] "-h" (.swap ..) rfl
  have second : both.WrittenAs onBoth' := @Options.WrittenAs.behind both [_, _] "-h" (.refl _) rfl
  obtain ⟨fromFile, fromStdin⟩ :=
    sources file "-h" _ _ openPath openPath ⟨[], none⟩ contents rfl opened behind alone
  have session : Command.program.report (file.session.run ⟨contents, none⟩ {}) = report := by
    decide +kernel
  have lenient : run [] onBoth = report :=
    (tokens both file _ _ openPath _ rfl rfl rfl first behind).trans (fromFile.trans session)
  have ended : Command.program.reader.read version = .error ⟨0, utf8Encode "arith 0.1.0\n", ""⟩ :=
    congrArg (Except.map _) (Command.foldlM_step_texts ["--lenient", "--version"] {})
  exact ⟨Command.program_documented, opened, behind, alone, first, second,
    fromFile.trans session, fromStdin.trans session, lenient,
    (inOrder both _ _ openPath _ second first).trans lenient, ended,
    ((decided version [[0xFF]] _ ended).2 openPath openPath _ ⟨[], none⟩).1⟩

end Formula
