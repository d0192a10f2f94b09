import Formula.Command.Basic

/-!
# The reader of arguments keeps to what is documented

## Main results

* `Command.program_documented` — what is taken for granted of libraries holds in the outer layer
-/

namespace Formula.Command

variable {scan next : Scan} {flag : Flag} {path text : String}

theorem ofName?_name (option : LongOption) : LongOption.ofName? option.name = some option := by
  obtain ⟨_ | _⟩ | _ | _ := option <;> decide

/-- A flag is written like a long option without a value. -/
theorem withText_flag (optionsToo : scan.pathsOnly = false)
    (free : scan.options.has flag = false) :
    scan.withText flag.name = .ok { scan with options := scan.options.withFlag flag } := by
  have long : scan.withText flag.name = scan.withLong flag.name := by
    rw [Scan.withText, optionsToo]
    cases flag <;> rfl
  have noValue : flag.name.toList.takeWhile (· ≠ '=') = flag.name.toList ∧
      flag.name.toList.dropWhile (· ≠ '=') = [] := by cases flag <;> decide
  have known : LongOption.ofName? flag.name = some (.flag flag) := ofName?_name (.flag flag)
  rw [long, Scan.withLong]
  simp only [noValue.1, noValue.2, String.ofList_toList, known, Scan.withFlag, free,
    Bool.false_eq_true, if_false]

theorem withText_path (standing : scan.pathsOnly = true ∨ IsPlainPath path)
    (noPath : scan.options.path = none) :
    scan.withText path = .ok { scan with options := scan.options.withPath path } := by
  have once : scan.withPath path = .ok { scan with options := scan.options.withPath path } := by
    rw [Scan.withPath, noPath]
  rw [← once]
  unfold Scan.withText
  split
  · rfl
  · next optionsToo =>
    rcases standing.resolve_left optionsToo with rfl | plain
    · rfl
    · -- Only the last case takes a text that begins with another character.
      split
      all_goals first
        | rfl
        | next dash => exact absurd (congrArg List.head? dash) plain

theorem withText_dashes (optionsToo : scan.pathsOnly = false) :
    scan.withText "--" = .ok { scan with pathsOnly := true } := by
  rw [Scan.withText, optionsToo]
  rfl

/-- One step of the reader on an argument that is a text. -/
theorem argumentReader_step (scan : Scan) (text : String) :
    argumentReader.step scan (utf8Encode text) =
      (scan.withText text).mapError Decision.report := by
  simp only [argumentReader, Scan.step, utf8Decode?_utf8Encode]

theorem step_of_withText (given : scan.withText text = .ok next) :
    argumentReader.step scan (utf8Encode text) = .ok next := by
  rw [argumentReader_step, given]
  rfl

/-- Arguments that are texts are read one after the other, and the first decision is reported. -/
theorem foldlM_step_texts (texts : List String) (scan : Scan) :
    (texts.map utf8Encode).foldlM argumentReader.step scan =
      (texts.foldlM Scan.withText scan).mapError Decision.report := by
  induction texts generalizing scan with
  | nil => rfl
  | cons text texts ih =>
    rw [List.map_cons, List.foldlM_cons, List.foldlM_cons, argumentReader_step]
    cases scan.withText text with
    | error decision => rfl
    | ok next => exact ih next

theorem argumentReader_documented : argumentReader.Documented where
  options_start := rfl
  pathsOnly_start := rfl
  accepts_flag optionsToo free :=
    ⟨_, step_of_withText (withText_flag optionsToo free), rfl, optionsToo⟩
  accepts_path noPath standing := ⟨_, step_of_withText (withText_path standing noPath), rfl, rfl⟩
  accepts_dashes optionsToo := ⟨_, step_of_withText (withText_dashes optionsToo), rfl, rfl⟩

/-- The outer layer is a program whose libraries keep to what is documented. -/
theorem program_documented : program.Documented where
  reader := argumentReader_documented
  describe_pair _ := rfl

end Formula.Command
