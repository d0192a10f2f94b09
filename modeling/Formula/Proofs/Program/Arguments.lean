import Formula.Program.Basic

/-!
# Arguments that choose options

Each argument that chooses something sets what no other one may set, so two neighbours can be
exchanged, and in any order arguments choose the same options. Those that choose given options are
therefore known up to their order: one for each flag, and the path, which must stand behind a `--` if
it looks like an option. A reader that keeps to what is documented accepts them all.

## Main definitions

* `Options.words` — the arguments that options are chosen with, in one order
* `Options.WrittenAs` — the arguments choose the options
* `Options.Takes`, `Options.Chooses` — one argument and several ones that choose further options

## Main results

* `Options.Chooses.perm` — arguments choose the same options in any order
* `Options.WrittenAs.read_eq` — a reader gives the options that arguments are written for
* `ArgumentReader.read_append_of_error` — what ends the program does so whatever follows
-/

namespace Formula

namespace Options

/-- The arguments of the flags that have been given. -/
def flags (options : Options) : List Argument :=
  ([Flag.lenient, .tokens].filter options.has).map fun flag => utf8Encode flag.name

/-- The arguments of the flags and of the path. -/
def words (options : Options) : List Argument :=
  options.flags ++ options.path.toList.map utf8Encode

/-- The arguments choose the options. Each flag and the path is given once, in any order. A path
that is not plain stands behind a `--`, and nothing but the path does. -/
inductive WrittenAs (options : Options) : List Argument → Prop
  | plain {arguments : List Argument} :
      arguments.Perm options.words → (∀ path ∈ options.path, IsPlainPath path) →
      WrittenAs options arguments
  | closed {arguments : List Argument} :
      arguments.Perm options.words → (∀ path ∈ options.path, IsPlainPath path) →
      WrittenAs options (arguments ++ [dashes])
  | behind {arguments : List Argument} {path : String} :
      arguments.Perm options.flags → options.path = some path →
      WrittenAs options (arguments ++ [dashes, utf8Encode path])

/-- The argument chooses something that was not chosen before. -/
inductive Takes : Options → Argument → Options → Prop
  | flag {o : Options} {flag : Flag} : o.has flag = false →
      Takes o (utf8Encode flag.name) (o.withFlag flag)
  | path {o : Options} {path : String} : o.path = none → IsPlainPath path →
      Takes o (utf8Encode path) (o.withPath path)

/-- The arguments choose something, one after the other. -/
inductive Chooses : Options → List Argument → Options → Prop
  | nil {o : Options} : Chooses o [] o
  | cons {o m o' : Options} {argument : Argument} {arguments : List Argument} :
      Takes o argument m → Chooses m arguments o' → Chooses o (argument :: arguments) o'

section Choices

variable {o m o' : Options} {a b : Argument} {arguments arguments' : List Argument}

@[simp] theorem has_withFlag (o : Options) (flag other : Flag) :
    (o.withFlag flag).has other = (flag == other || o.has other) := by
  cases flag <;> cases other <;> rfl

@[simp] theorem path_withFlag (o : Options) (flag : Flag) : (o.withFlag flag).path = o.path := by
  cases flag <;> rfl

@[simp] theorem has_withPath (o : Options) (path : String) (flag : Flag) :
    (o.withPath path).has flag = o.has flag := by
  cases flag <;> rfl

theorem withFlag_comm (o : Options) (flag other : Flag) :
    (o.withFlag flag).withFlag other = (o.withFlag other).withFlag flag := by
  cases flag <;> cases other <;> rfl

theorem withFlag_withPath (o : Options) (flag : Flag) (path : String) :
    (o.withFlag flag).withPath path = (o.withPath path).withFlag flag := by
  cases flag <;> rfl

/-- Two arguments that choose something can be exchanged. -/
theorem Takes.comm (first : o.Takes a m) (second : m.Takes b o') :
    ∃ m' : Options, o.Takes b m' ∧ m'.Takes a o' := by
  cases first with
  | @flag flag free =>
    cases second with
    | @flag other others =>
      obtain ⟨different, otherFree⟩ : (flag == other) = false ∧ o.has other = false := by
        simpa using others
      refine ⟨_, .flag otherFree, withFlag_comm o flag other ▸ .flag ?_⟩
      rw [has_withFlag, free, Bool.or_false, beq_eq_false_iff_ne]
      exact (beq_eq_false_iff_ne.mp different).symm
    | @path path noPath plain =>
      rw [path_withFlag] at noPath
      refine ⟨_, .path noPath plain, withFlag_withPath o flag path ▸ .flag ?_⟩
      rw [has_withPath, free]
  | @path path noPath plain =>
    cases second with
    | @flag flag free =>
      rw [has_withPath] at free
      refine ⟨_, .flag free, withFlag_withPath o flag path ▸ .path ?_ plain⟩
      rw [path_withFlag, noPath]
    | path again _ => cases again

/-- In any order arguments choose the same options. -/
theorem Chooses.perm (chooses : o.Chooses arguments o') (perm : arguments.Perm arguments') :
    o.Chooses arguments' o' := by
  induction perm generalizing o with
  | nil => exact chooses
  | cons a _ ih =>
    cases chooses with
    | cons first rest => exact .cons first (ih rest)
  | swap a b _ =>
    cases chooses with
    | cons first rest =>
      cases rest with
      | cons second rest =>
        obtain ⟨m, second, first⟩ := first.comm second
        exact .cons second (.cons first rest)
  | trans _ _ ihFirst ihSecond => exact ihSecond (ihFirst chooses)

theorem Chooses.append (first : o.Chooses arguments m) (second : m.Chooses arguments' o') :
    o.Chooses (arguments ++ arguments') o' := by
  induction first with
  | nil => exact second
  | cons takes _ ih => exact .cons takes (ih second)

/-- The flags of options choose all of them but the path. -/
theorem chooses_flags (o : Options) : Chooses {} o.flags { o with path := none } := by
  obtain ⟨_ | _, _ | _, path⟩ := o
  · exact .nil
  · exact .cons (@Takes.flag _ .tokens rfl) .nil
  · exact .cons (@Takes.flag _ .lenient rfl) .nil
  · exact .cons (@Takes.flag _ .lenient rfl) (.cons (@Takes.flag _ .tokens rfl) .nil)

/-- The words of options choose them. -/
theorem chooses_words (plain : ∀ path ∈ o.path, IsPlainPath path) : Chooses {} o.words o := by
  obtain ⟨lenient, tokens, _ | path⟩ := o
  · exact (chooses_flags _).append .nil
  · exact (chooses_flags _).append (.cons (.path rfl (plain path rfl)) .nil)

end Choices

end Options

/-! ### Readers of arguments -/

namespace ArgumentReader

variable {reader : ArgumentReader} {state middle : reader.State} {options : Options}
variable {argument : Argument} {arguments front more : List Argument} {report : Report}

/-- What a reader gives once all arguments have led on. -/
theorem read_of_foldlM (given : arguments.foldlM reader.step reader.start = .ok state) :
    reader.read arguments = .ok (reader.options state) := by
  rw [read, given]
  rfl

/-- The arguments in front of others are read first. -/
theorem foldlM_append_of_ok (given : front.foldlM reader.step state = .ok middle)
    (more : List Argument) :
    (front ++ more).foldlM reader.step state = more.foldlM reader.step middle := by
  rw [List.foldlM_append, given]
  rfl

theorem foldlM_cons_of_ok (given : reader.step state argument = .ok middle)
    (more : List Argument) :
    (argument :: more).foldlM reader.step state = more.foldlM reader.step middle := by
  rw [List.foldlM_cons, given]
  rfl

/-- An argument that ends the program does so whatever follows. -/
theorem read_append_of_error (given : reader.read front = .error report) (more : List Argument) :
    reader.read (front ++ more) = .error report := by
  rcases here : front.foldlM reader.step reader.start with ended | state
  · rw [read, here] at given
    rw [read, List.foldlM_append, here]
    exact given
  · rw [read_of_foldlM here] at given
    cases given

namespace Documented

/-- An argument that chooses something leads on. -/
theorem accepts_of_takes (documented : reader.Documented)
    (optionsToo : reader.pathsOnly state = false)
    (takes : (reader.options state).Takes argument options) :
    reader.Accepts state argument options false := by
  cases takes with
  | flag free => exact documented.accepts_flag optionsToo free
  | path noPath plain =>
    have accepts := documented.accepts_path noPath (Or.inr plain)
    rwa [optionsToo] at accepts

/-- So do several ones. -/
theorem exists_foldlM (documented : reader.Documented)
    (optionsToo : reader.pathsOnly state = false)
    (chooses : (reader.options state).Chooses arguments options) :
    ∃ next, arguments.foldlM reader.step state = .ok next ∧ reader.options next = options ∧
      reader.pathsOnly next = false := by
  generalize here : reader.options state = o at chooses
  induction chooses generalizing state with
  | nil => exact ⟨state, rfl, here, optionsToo⟩
  | cons takes _ ih =>
    subst here
    obtain ⟨middle, first, chosen, optionsToo⟩ := documented.accepts_of_takes optionsToo takes
    obtain ⟨next, rest, found⟩ := ih optionsToo chosen
    exact ⟨next, (foldlM_cons_of_ok first _).trans rest, found⟩

end Documented

end ArgumentReader

/-- A reader gives the options that arguments are written for. -/
theorem Options.WrittenAs.read_eq {reader : ArgumentReader} (documented : reader.Documented)
    {options : Options} {arguments : List Argument} (written : options.WrittenAs arguments) :
    reader.read arguments = .ok options := by
  have start {arguments o} (chooses : Chooses {} arguments o) :=
    documented.exists_foldlM documented.pathsOnly_start (documented.options_start ▸ chooses)
  cases written with
  | plain perm plain =>
    obtain ⟨state, given, rfl, -⟩ := start ((chooses_words plain).perm perm.symm)
    exact ArgumentReader.read_of_foldlM given
  | @closed arguments perm plain =>
    obtain ⟨state, given, rfl, optionsToo⟩ := start ((chooses_words plain).perm perm.symm)
    obtain ⟨next, ended, same, -⟩ := documented.accepts_dashes optionsToo
    rw [← same]
    refine ArgumentReader.read_of_foldlM ?_
    rw [ArgumentReader.foldlM_append_of_ok given, ArgumentReader.foldlM_cons_of_ok ended]
    rfl
  | @behind arguments path perm isPath =>
    obtain ⟨state, given, chosen, optionsToo⟩ := start ((chooses_flags options).perm perm.symm)
    obtain ⟨middle, ended, same, pathsOnly⟩ := documented.accepts_dashes optionsToo
    rw [chosen] at same
    have noPath : (reader.options middle).path = none := by rw [same]
    obtain ⟨next, last, found, -⟩ :=
      @ArgumentReader.Documented.accepts_path _ documented _ path noPath (Or.inl pathsOnly)
    have whole : reader.options next = options := by rw [found, same, withPath, ← isPath]
    rw [← whole]
    refine ArgumentReader.read_of_foldlM ?_
    rw [ArgumentReader.foldlM_append_of_ok given, ArgumentReader.foldlM_cons_of_ok ended,
      ArgumentReader.foldlM_cons_of_ok last]
    rfl

end Formula
