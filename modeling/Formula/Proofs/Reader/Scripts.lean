import Formula.Proofs.Reader.Cursor
import Formula.Reader.Script

/-!
# Scripts over several readers

Whatever a script does, each reader stays on its own text, at a boundary of it, and every mark is
where some reader stood. A mark of another reader may be no boundary of this one's text; then this
one is sent to the end. Wherever a reader has been sent, it goes on like one that has only the rest
of its text, until it is sent elsewhere, and it does not move when others do.

## Main definitions

* `Performs` — the steps of a script, one rule for each
* `ReaderStep.Named`, `NamedScript` — a script that names what is there
* `ReaderDesk.Keeps` — the invariant of scripts
* `readingsOf` — what one reader has given in a script

## Main results

* `perform_eq_some_iff` — the rules are the steps
* `ReaderDesk.Keeps.run` — readers keep their texts, and marks fit into words
* `readingsOf_run` — a reader goes on where it stands
* `scripts_move_readers` — readers after any script
-/

namespace Formula

/-- One step of a script: what must be there for it, what it answers, and what it leaves behind. -/
inductive Performs (desk : ReaderDesk) : ReaderStep → ReaderAnswer → ReaderDesk → Prop
  | next {i : Nat} {r : Reader} : desk.readers[i]? = some r →
      Performs desk (.next i) (.token r.next.1 r.next.2.offset) (desk.setReader i r.next.2)
  | nextIn {i : Nat} {r : Reader} (set : String) : desk.readers[i]? = some r →
      Performs desk (.nextIn i set)
        (.membership r.next.1 (r.next.1.isSymbolIn set) r.next.2.offset)
        (desk.setReader i r.next.2)
  | offset {i : Nat} {r : Reader} : desk.readers[i]? = some r →
      Performs desk (.offset i) (.offset r.offset) desk
  | save {i : Nat} {r : Reader} : desk.readers[i]? = some r →
      Performs desk (.save i) (.saved desk.marks.length r.offset)
        { desk with marks := desk.marks ++ [r.offset] }
  | restore {i k mark : Nat} {r : Reader} : desk.marks[k]? = some mark →
      desk.readers[i]? = some r →
      Performs desk (.restore i k)
        (.restored ((r.seek mark).offset == mark) (r.seek mark).offset)
        (desk.setReader i (r.seek mark))
  | same {j k mark other : Nat} : desk.marks[j]? = some mark → desk.marks[k]? = some other →
      Performs desk (.same j k) (.same (mark == other)) desk
  | drain {i : Nat} {r : Reader} : desk.readers[i]? = some r →
      Performs desk (.drain i)
        (.drained (TokenRun.mk r false).drain.1
          ((TokenRun.mk r false).drain.2.next?.map fun (token, _) => token))
        (desk.setReader i (TokenRun.mk r false).drain.2.reader)

namespace ReaderStep

/-- The reader that a step is about. -/
def reader? : ReaderStep → Option Nat
  | next i | nextIn i _ | offset i | save i | restore i _ | drain i => some i
  | same _ _ => none

/-- The marks that a step looks up. -/
def marks : ReaderStep → List Nat
  | restore _ k => [k]
  | same j k => [j, k]
  | _ => []

/-- The number of marks behind a step. -/
def marksAfter (marks : Nat) : ReaderStep → Nat
  | save _ => marks + 1
  | _ => marks

/-- Are the reader and the marks that a step names there? -/
def Named (readers marks : Nat) (step : ReaderStep) : Prop :=
  (∀ i ∈ step.reader?, i < readers) ∧ ∀ k ∈ step.marks, k < marks

/-- Does the step move the reader otherwise than by reading a token? -/
def jumps (i : Nat) : ReaderStep → Bool
  | restore j _ | drain j => j == i
  | _ => false

/-- Is a token of the reader read in the step? -/
def reads (i : Nat) : ReaderStep → Bool
  | next j | nextIn j _ => j == i
  | _ => false

/-- The token that the reader gives in a step, and where it stands behind it. -/
def reading? (i : Nat) : ReaderStep → ReaderAnswer → Option (Token × Nat)
  | next j, .token token position => if j = i then some (token, position) else none
  | nextIn j _, .membership token _ position => if j = i then some (token, position) else none
  | _, _ => none

end ReaderStep

/-- Does a script name nothing but readers and marks that are there when it comes to them? -/
def NamedScript (readers : Nat) : Nat → List ReaderStep → Prop
  | _, [] => True
  | marks, step :: steps =>
    step.Named readers marks ∧ NamedScript readers (step.marksAfter marks) steps

/-- All tokens that a reader gives in a script, each with where the reader stands behind it. -/
def readingsOf (i : Nat) (steps : List ReaderStep) (answers : List ReaderAnswer) :
    List (Token × Nat) :=
  (steps.zip answers).filterMap fun (step, answer) => step.reading? i answer

/-- The readers of the desk read these texts, and all of its marks fit into words. -/
structure ReaderDesk.Keeps (desk : ReaderDesk) (texts : List String) : Prop where
  texts_eq : desk.readers.map Reader.text = texts.map String.toList
  marks_lt : ∀ mark ∈ desk.marks, mark < 2 ^ 32

section Steps

variable {desk desk' : ReaderDesk} {step : ReaderStep} {answer : ReaderAnswer}
variable {texts : List String} {i j : Nat} {r r' : Reader}

/-- The rules are the steps. -/
theorem perform_eq_some_iff :
    desk.perform step = some (answer, desk') ↔ Performs desk step answer desk' := by
  constructor
  · intro performed
    cases step with
    | next i =>
      obtain ⟨r, here, same⟩ := Option.bind_eq_some_iff.mp performed
      obtain ⟨rfl, rfl⟩ := Prod.mk.inj (Option.some.inj same)
      exact .next here
    | nextIn i set =>
      obtain ⟨r, here, same⟩ := Option.bind_eq_some_iff.mp performed
      obtain ⟨rfl, rfl⟩ := Prod.mk.inj (Option.some.inj same)
      exact .nextIn set here
    | offset i =>
      obtain ⟨r, here, same⟩ := Option.bind_eq_some_iff.mp performed
      obtain ⟨rfl, rfl⟩ := Prod.mk.inj (Option.some.inj same)
      exact .offset here
    | save i =>
      obtain ⟨r, here, same⟩ := Option.bind_eq_some_iff.mp performed
      obtain ⟨rfl, rfl⟩ := Prod.mk.inj (Option.some.inj same)
      exact .save here
    | drain i =>
      obtain ⟨r, here, same⟩ := Option.bind_eq_some_iff.mp performed
      obtain ⟨rfl, rfl⟩ := Prod.mk.inj (Option.some.inj same)
      exact .drain here
    | restore i k =>
      obtain ⟨mark, here, behind⟩ := Option.bind_eq_some_iff.mp performed
      obtain ⟨r, there, same⟩ := Option.bind_eq_some_iff.mp behind
      obtain ⟨rfl, rfl⟩ := Prod.mk.inj (Option.some.inj same)
      exact .restore here there
    | same j k =>
      obtain ⟨mark, here, behind⟩ := Option.bind_eq_some_iff.mp performed
      obtain ⟨other, there, same⟩ := Option.bind_eq_some_iff.mp behind
      obtain ⟨rfl, rfl⟩ := Prod.mk.inj (Option.some.inj same)
      exact .same here there
  · intro performs
    cases performs with
    | next here | nextIn _ here | offset here | save here | drain here =>
      simp [ReaderDesk.perform, here]
    | restore here there | same here there => simp [ReaderDesk.perform, here, there]

/-- Reading all tokens does not change the text. -/
theorem TokenRun.text_drain (run : TokenRun) : run.drain.2.reader.text = run.reader.text := by
  fun_induction drain run with
  | case1 => rfl
  | case2 => rfl
  | case3 run _ _ tokens last h ih => simpa [h] using ih

/-- A reader that is replaced is found, and the others are as well. -/
theorem ReaderDesk.readers_setReader (here : desk.readers[i]? = some r) (r' : Reader) (j : Nat) :
    (desk.setReader i r').readers[j]? = if j = i then some r' else desk.readers[j]? := by
  obtain ⟨inside, -⟩ := List.getElem?_eq_some_iff.mp here
  by_cases same : j = i
  · simp [setReader, same, inside]
  · simp [setReader, same, List.getElem?_set_ne (Ne.symm same)]

theorem ReaderDesk.map_text_setReader (here : desk.readers[i]? = some r) (same : r'.text = r.text) :
    (desk.setReader i r').readers.map Reader.text = desk.readers.map Reader.text := by
  apply List.ext_getElem?
  intro j
  rw [List.getElem?_map, List.getElem?_map, readers_setReader here]
  split
  · next there => simp [there, here, same]
  · rfl

/-- No step changes a text. -/
theorem Performs.map_text (performs : Performs desk step answer desk') :
    desk'.readers.map Reader.text = desk.readers.map Reader.text := by
  cases performs with
  | next here | nextIn _ here | restore _ here => exact ReaderDesk.map_text_setReader here rfl
  | drain here => exact ReaderDesk.map_text_setReader here (TokenRun.text_drain _)
  | offset _ | save _ | same _ _ => rfl

/-- Marks are only added, and each of them is where some reader stood. -/
theorem Performs.marks_eq (performs : Performs desk step answer desk') :
    ∃ added, desk'.marks = desk.marks ++ added ∧
      desk'.marks.length = step.marksAfter desk.marks.length ∧
      ∀ mark ∈ added, ∃ r ∈ desk.readers, mark = r.offset := by
  cases performs with
  | @save i r here =>
    refine ⟨[r.offset], rfl, by simp [ReaderStep.marksAfter], fun mark member => ?_⟩
    exact ⟨r, List.mem_of_getElem? here, List.mem_singleton.mp member⟩
  | next _ | nextIn _ _ | offset _ | restore _ _ | same _ _ | drain _ =>
    exact ⟨[], (List.append_nil _).symm, rfl, by simp⟩

/-- A step on one reader leaves every other one as it is. -/
theorem Performs.readers_of_ne (performs : Performs desk step answer desk')
    (other : step.reader? ≠ some i) : desk'.readers[i]? = desk.readers[i]? := by
  have apart {j : Nat} (about : step.reader? = some j) : i ≠ j := by
    rintro rfl
    exact other about
  cases performs with
  | next here | nextIn _ here | restore _ here | drain here =>
    rw [ReaderDesk.readers_setReader here, if_neg (apart rfl)]
  | offset _ | save _ | same _ _ => rfl

/-- A step that does not send the reader elsewhere leaves it where it is, or reads a token. -/
theorem Performs.reads_or (performs : Performs desk step answer desk')
    (here : desk.readers[i]? = some r) (stays : step.jumps i = false) :
    step.reads i = false ∧ step.reading? i answer = none ∧ desk'.readers[i]? = some r ∨
      step.reads i = true ∧ step.reading? i answer = some (r.next.1, r.next.2.offset) ∧
        desk'.readers[i]? = some r.next.2 := by
  cases performs with
  | @next j s there | @nextIn j s _ there =>
    by_cases same : j = i
    · subst same
      obtain rfl := Option.some.inj (here.symm.trans there)
      refine Or.inr ⟨by simp [ReaderStep.reads], by simp [ReaderStep.reading?], ?_⟩
      rw [ReaderDesk.readers_setReader there, if_pos rfl]
    · refine Or.inl ⟨by simp [ReaderStep.reads, same], by simp [ReaderStep.reading?, same], ?_⟩
      rw [ReaderDesk.readers_setReader there, if_neg (Ne.symm same), here]
  | @restore j _ _ _ _ there | @drain j _ there =>
    have apart : j ≠ i := by simpa [ReaderStep.jumps] using stays
    refine Or.inl ⟨rfl, rfl, ?_⟩
    rw [ReaderDesk.readers_setReader there, if_neg (Ne.symm apart), here]
  | offset _ | save _ | same _ _ => exact Or.inl ⟨rfl, rfl, here⟩

/-- A step that names what is there can be performed. -/
theorem exists_performs (named : step.Named desk.readers.length desk.marks.length) :
    ∃ answer desk', Performs desk step answer desk' := by
  obtain ⟨readers, marks⟩ := named
  have reader {i : Nat} (about : step.reader? = some i) : ∃ r, desk.readers[i]? = some r :=
    ⟨_, List.getElem?_eq_getElem (readers i about)⟩
  have mark {k : Nat} (member : k ∈ step.marks) : ∃ mark, desk.marks[k]? = some mark :=
    ⟨_, List.getElem?_eq_getElem (marks k member)⟩
  cases step with
  | next i =>
    obtain ⟨r, here⟩ := reader rfl
    exact ⟨_, _, .next here⟩
  | nextIn i set =>
    obtain ⟨r, here⟩ := reader rfl
    exact ⟨_, _, .nextIn set here⟩
  | offset i =>
    obtain ⟨r, here⟩ := reader rfl
    exact ⟨_, _, .offset here⟩
  | save i =>
    obtain ⟨r, here⟩ := reader rfl
    exact ⟨_, _, .save here⟩
  | restore i k =>
    obtain ⟨r, here⟩ := reader rfl
    obtain ⟨m, there⟩ := mark (List.mem_singleton.mpr rfl)
    exact ⟨_, _, .restore there here⟩
  | same j k =>
    obtain ⟨m, here⟩ := mark List.mem_cons_self
    obtain ⟨m', there⟩ := mark (List.mem_cons_of_mem _ List.mem_cons_self)
    exact ⟨_, _, .same here there⟩
  | drain i =>
    obtain ⟨r, here⟩ := reader rfl
    exact ⟨_, _, .drain here⟩

/-! ### The invariant -/

theorem ReaderDesk.keeps_ofTexts (texts : List String) : (ofTexts texts).Keeps texts where
  texts_eq := by simp [ofTexts]
  marks_lt := by simp [ofTexts]

/-- A reader of the desk reads the text of the same number. -/
theorem ReaderDesk.Keeps.text_eq {text : String} (keeps : desk.Keeps texts)
    (given : texts[i]? = some text) (here : desk.readers[i]? = some r) : r.text = text.toList := by
  have texts_eq := congrArg (·[i]?) keeps.texts_eq
  simpa [given, here] using texts_eq

theorem ReaderDesk.Keeps.length_eq (keeps : desk.Keeps texts) :
    desk.readers.length = texts.length := by
  simpa using congrArg List.length keeps.texts_eq

/-- Every step keeps the texts, and adds no mark that does not fit into a word. -/
theorem ReaderDesk.Keeps.performs (keeps : desk.Keeps texts)
    (short : ∀ text ∈ texts, utf8Length text.toList < 2 ^ 32)
    (performs : Performs desk step answer desk') : desk'.Keeps texts where
  texts_eq := performs.map_text.trans keeps.texts_eq
  marks_lt := by
    obtain ⟨added, marks, -, stood⟩ := performs.marks_eq
    rw [marks, List.forall_mem_append]
    refine ⟨keeps.marks_lt, fun mark member => ?_⟩
    obtain ⟨r, inReaders, rfl⟩ := stood mark member
    -- The offset is that of a boundary of one of the texts.
    have inTexts : r.text ∈ texts.map String.toList :=
      keeps.texts_eq ▸ List.mem_map_of_mem inReaders
    obtain ⟨text, member, same⟩ := List.mem_map.mp inTexts
    have total := r.offset_add_utf8Length_unread
    have bound := short text member
    rw [same, ← total] at bound
    omega

end Steps

/-! ### Whole scripts -/

section Runs

variable {desk desk' : ReaderDesk} {steps : List ReaderStep} {answers : List ReaderAnswer}
variable {texts : List String} {i : Nat} {r : Reader}

theorem ReaderDesk.run_cons_eq_some_iff {step : ReaderStep} :
    desk.run (step :: steps) = some (answers, desk') ↔
      ∃ answer more mid, answers = answer :: more ∧ Performs desk step answer mid ∧
        mid.run steps = some (more, desk') := by
  simp only [run, ← perform_eq_some_iff]
  constructor
  · intro ran
    obtain ⟨⟨answer, mid⟩, performed, behind⟩ := Option.bind_eq_some_iff.mp ran
    obtain ⟨⟨more, last⟩, ranMore, same⟩ := Option.bind_eq_some_iff.mp behind
    obtain ⟨rfl, rfl⟩ := Prod.mk.inj (Option.some.inj same)
    exact ⟨answer, more, mid, rfl, performed, ranMore⟩
  · rintro ⟨answer, more, mid, rfl, performed, ran⟩
    simp [performed, ran]

/-- A script that names what is there runs to its end. -/
theorem exists_run (named : NamedScript desk.readers.length desk.marks.length steps) :
    ∃ answers desk', desk.run steps = some (answers, desk') := by
  induction steps generalizing desk with
  | nil => exact ⟨[], desk, rfl⟩
  | cons step steps ih =>
    obtain ⟨answer, mid, performs⟩ := exists_performs named.1
    obtain ⟨_, _, marks, _⟩ := performs.marks_eq
    have readers : mid.readers.length = desk.readers.length := by
      simpa using congrArg List.length performs.map_text
    have later := named.2
    rw [← marks, ← readers] at later
    obtain ⟨more, desk', ran⟩ := ih later
    exact ⟨answer :: more, desk',
      ReaderDesk.run_cons_eq_some_iff.mpr ⟨answer, more, mid, rfl, performs, ran⟩⟩

/-- Scripts keep the texts, and add no marks that do not fit into words. -/
theorem ReaderDesk.Keeps.run (keeps : desk.Keeps texts)
    (short : ∀ text ∈ texts, utf8Length text.toList < 2 ^ 32)
    (ran : desk.run steps = some (answers, desk')) : desk'.Keeps texts := by
  induction steps generalizing desk answers with
  | nil =>
    obtain ⟨-, rfl⟩ := Prod.mk.inj (Option.some.inj ran)
    exact keeps
  | cons step steps ih =>
    obtain ⟨answer, more, mid, -, performs, ran⟩ := run_cons_eq_some_iff.mp ran
    exact ih (keeps.performs short performs) ran

/-- As long as it is not sent elsewhere, a reader gives its next tokens, one for each step that asks
for one, whatever other readers do in between. -/
theorem readingsOf_run (here : desk.readers[i]? = some r)
    (stays : ∀ step ∈ steps, step.jumps i = false)
    (ran : desk.run steps = some (answers, desk')) :
    readingsOf i steps answers = r.readings (steps.countP (·.reads i)) ∧
      desk'.readers[i]? = some (r.advance (steps.countP (·.reads i))) := by
  induction steps generalizing desk answers r with
  | nil =>
    obtain ⟨rfl, rfl⟩ := Prod.mk.inj (Option.some.inj ran)
    exact ⟨rfl, here⟩
  | cons step steps ih =>
    obtain ⟨staysFirst, staysLater⟩ := List.forall_mem_cons.mp stays
    obtain ⟨answer, more, mid, rfl, performs, ran⟩ := ReaderDesk.run_cons_eq_some_iff.mp ran
    rcases performs.reads_or here staysFirst with ⟨waits, none, there⟩ | ⟨reads, some, there⟩
    · rw [List.countP_cons_of_neg (by simp [waits])]
      obtain ⟨readings, last⟩ := ih there staysLater ran
      refine ⟨?_, last⟩
      simpa [readingsOf, none] using readings
    · rw [List.countP_cons_of_pos reads]
      obtain ⟨readings, last⟩ := ih there staysLater ran
      refine ⟨?_, last⟩
      rw [Reader.readings, ← readings]
      simp [readingsOf, some]

/-- **Readers under scripts.** A script that names what is there runs to its end. It leaves every
reader at a boundary of its own text, where its cursor does not fail. From a mark a reader is sent
to the same offset if that is a boundary of its text, and otherwise to the end. Until it is sent
elsewhere it reads what a reader of the rest of the text reads, as much further on as it stands, and
steps on other readers leave it where it is. -/
theorem scripts_move_readers (texts : List String) (steps : List ReaderStep)
    (short : ∀ text ∈ texts, utf8Length text.toList < 2 ^ 32)
    (named : NamedScript texts.length 0 steps) :
    ∃ answers desk, (ReaderDesk.ofTexts texts).run steps = some (answers, desk) ∧
      ∀ i text, texts[i]? = some text → ∃ r, desk.readers[i]? = some r ∧
        -- The reader stands at a boundary of its text, and its cursor does not fail.
        (r.text = text.toList ∧
          (∃ front, text.toList = front ++ r.unread ∧ utf8Length front = r.offset) ∧
          r.cursor.offset?.map UInt32.toNat = some r.offset ∧
          r.cursor.next? = some (r.next.1, r.next.2.cursor)) ∧
        -- It can be sent to each mark that is a boundary, and is sent to the end by the others.
        (∀ k mark, desk.marks[k]? = some mark →
          (UInt32.ofNat mark).toNat = mark ∧
          r.cursor.reset (.ofNat mark) = (r.seek mark).cursor ∧
          (r.seek mark).offset =
            (if IsBoundary text.toList mark then mark else utf8Length text.toList) ∧
          desk.perform (.restore i k) =
            some (.restored (decide (IsBoundary text.toList mark)) (r.seek mark).offset,
              desk.setReader i (r.seek mark))) ∧
        -- From there on it reads what a reader of the rest of the text reads.
        (∀ more answers' desk', desk.run more = some (answers', desk') →
          (∀ step ∈ more, step.jumps i = false) →
          desk'.readers[i]? = some (r.advance (more.countP (·.reads i))) ∧
          readingsOf i more answers' = (r.rest.readings (more.countP (·.reads i))).map
            fun (token, position) => (token, r.offset + position)) ∧
        r.tokens = r.rest.tokens ∧
        -- Steps on other readers do not move it.
        ∀ step answer desk', desk.perform step = some (answer, desk') → step.reader? ≠ some i →
          desk'.readers[i]? = some r := by
  have start : NamedScript (ReaderDesk.ofTexts texts).readers.length
      (ReaderDesk.ofTexts texts).marks.length steps := by
    simpa [ReaderDesk.ofTexts] using named
  obtain ⟨answers, desk, ran⟩ := exists_run start
  have keeps := (ReaderDesk.keeps_ofTexts texts).run short ran
  refine ⟨answers, desk, ran, fun i text given => ?_⟩
  obtain ⟨inside, -⟩ := List.getElem?_eq_some_iff.mp given
  rw [← keeps.length_eq] at inside
  have here := List.getElem?_eq_getElem inside
  generalize desk.readers[i] = r at here
  have text_eq := keeps.text_eq given here
  have shortText : utf8Length r.text < 2 ^ 32 := by
    rw [text_eq]
    exact short text (List.mem_of_getElem? given)
  refine ⟨r, here, ⟨text_eq, ?_, r.offset?_cursor shortText, r.next?_cursor shortText⟩,
    fun k mark marked => ?_, fun more answers' desk' ranMore stays => ?_, r.tokens_rest.symm,
    fun step answer desk' performed other => ?_⟩
  · rw [← text_eq]
    exact r.exists_front
  · have word : (UInt32.ofNat mark).toNat = mark :=
      UInt32.toNat_ofNat_of_lt' (keeps.marks_lt mark (List.mem_of_getElem? marked))
    rw [← text_eq]
    refine ⟨word, ?_, r.offset_seek mark, ?_⟩
    · rw [r.reset_cursor, word]
    · have performs := perform_eq_some_iff.mpr (.restore marked here)
      rwa [beq_eq_decide, decide_eq_decide.mpr r.offset_seek_eq_iff] at performs
  · obtain ⟨readings, last⟩ := readingsOf_run here stays ranMore
    exact ⟨last, readings.trans (r.readings_eq _)⟩
  · rw [(perform_eq_some_iff.mp performed).readers_of_ne other, here]

/-- A mark behind two letters of one text lies within a character of another one: its reader is sent
to the end, and the reader that stood at the mark is sent back there. -/
theorem scripts_move_readers_foreign :
    ∃ answers desk, (ReaderDesk.ofTexts ["ab 12", "aé+"]).run [.next 0, .save 0] =
        some (answers, desk) ∧
      (∃ desk', desk.perform (.restore 1 0) = some (.restored false 4, desk')) ∧
      ∃ desk', desk.perform (.restore 0 0) = some (.restored true 2, desk') := by
  obtain ⟨answers, desk, ran, stand⟩ := scripts_move_readers ["ab 12", "aé+"] [.next 0, .save 0]
    (by decide +kernel)
    (by simp [NamedScript, ReaderStep.Named, ReaderStep.reader?, ReaderStep.marks])
  have marked : desk.marks[0]? = some 2 := by
    have evaluated : ((ReaderDesk.ofTexts ["ab 12", "aé+"]).run [.next 0, .save 0]).map
        (·.2.marks) = some [2] := by decide +kernel
    rw [ran] at evaluated
    have marks : desk.marks = [2] := Option.some.inj evaluated
    rw [marks]
    rfl
  refine ⟨answers, desk, ran, ?_, ?_⟩
  · obtain ⟨r, -, -, restores, -⟩ := stand 1 "aé+" rfl
    obtain ⟨-, -, position, performed⟩ := restores 0 2 marked
    have off : ¬IsBoundary "aé+".toList 2 := by decide +kernel
    rw [position, if_neg off, decide_eq_false off] at performed
    exact ⟨_, performed⟩
  · obtain ⟨r, -, -, restores, -⟩ := stand 0 "ab 12" rfl
    obtain ⟨-, -, position, performed⟩ := restores 0 2 marked
    have boundary : IsBoundary "ab 12".toList 2 := by decide +kernel
    rw [position, if_pos boundary, decide_eq_true boundary] at performed
    exact ⟨_, performed⟩

end Runs

end Formula
