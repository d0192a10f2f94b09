import Formula.Proofs.Reader.Cursor

/-!
# Readers go on or rest

A token takes characters from what is unread, so a reader stands further on behind it. At a stop
nothing but blanks is taken, and from then on the reader gives that stop without moving again. So a
reader has no more tokens than characters in front of it, apart from the stop, and whoever asks for
all of them comes to an end. It does not matter how the reader has come to where it is.

## Main definitions

* `Reader.Reachable` — the readers of a text that reading and seeking lead to
* `TokenRun.answers` — the answers to repeated requests for a token

## Main results

* `Reader.reachable_iff` — a reader can be brought to every place of its text
* `Reader.offset_lt_offset_next` — a token takes the reader further on
* `Reader.next_advance_of_isStop` — a stop is given again and again
* `Reads.answers_eq` — requests are answered with the tokens, one after the other
-/

namespace Formula

/-- The readers of a text that come about by reading tokens, and by seeking where some reader of
this or another text stands. -/
inductive Reader.Reachable (text : String) : Reader → Prop
  | start : Reachable text (ofString text)
  | next {r : Reader} : Reachable text r → Reachable text r.next.2
  | seek {r : Reader} (s : Reader) : Reachable text r → Reachable text (r.seek s.offset)

/-- The answers to `n` requests for a token. A request for which there is none leaves the run as it
is. -/
def TokenRun.answers (run : TokenRun) : Nat → List (Option Token)
  | 0 => []
  | n + 1 =>
    match run.next? with
    | some (token, run) => some token :: run.answers n
    | none => none :: run.answers n

section Progress

variable {r r' : Reader} {ts : List Token}

namespace Reader

/-- A reader can be brought to every place of its text. -/
theorem reachable_iff {text : String} : Reachable text r ↔ r.text = text.toList := by
  constructor
  · intro reachable
    induction reachable with
    | start => rfl
    | next _ ih => exact ih
    | seek _ _ ih => exact ih
  · intro same
    -- The reader at the start of the text is sent to where `r` stands.
    have there : (ofString text).seek r.offset = r := seek_offset same.symm
    exact there ▸ Reachable.start.seek r

/-- With less of the text in front of it a reader stands further on. -/
theorem offset_lt_offset (same : r'.text = r.text) (fewer : r'.unread.length < r.unread.length) :
    r.offset < r'.offset := by
  -- Of two end pieces of one text the shorter one is an end piece of the longer one.
  have inText : r'.unread <:+ r.text := same ▸ r'.unread_suffix
  obtain ⟨taken, unread⟩ :=
    List.suffix_of_suffix_length_le inText r.unread_suffix (Nat.le_of_lt fewer)
  obtain ⟨c, cs, rfl⟩ : ∃ c cs, taken = c :: cs := by
    apply List.exists_cons_of_ne_nil
    rintro rfl
    rw [← unread, List.nil_append] at fewer
    exact Nat.lt_irrefl _ fewer
  have before := r.offset_add_utf8Length_unread
  have behind := r'.offset_add_utf8Length_unread
  rw [same, ← before, ← unread, utf8Length_append, utf8Length_cons] at behind
  have bytes := c.utf8Size_pos
  omega

/-- A token takes the reader further on. -/
theorem offset_lt_offset_next (goesOn : r.next.1.isStop = false) : r.offset < r.next.2.offset :=
  offset_lt_offset rfl (length_scan_lt goesOn)

/-- At a stop nothing but blanks is taken. What is left is nothing, or begins no token; the stop
tells which. -/
theorem exists_blanks_of_isStop (stop : r.next.1.isStop = true) :
    ∃ blanks, r.unread = blanks ++ r.next.2.unread ∧ (∀ c ∈ blanks, isBlank c = true) ∧
      (∀ c ∈ r.next.2.unread.head?, isBlank c = false ∧ begins c = false) ∧
      r.next.1 = Token.stopBefore r.next.2.unread := by
  have left : r.next.2.unread = r.unread.dropWhile isBlank := scan_snd_of_isStop stop
  have run := blankRun_takeWhile r.unread
  have none := begins_of_isStop stop
  rw [left]
  refine ⟨r.unread.takeWhile isBlank, List.takeWhile_append_dropWhile.symm, run.1,
    fun c first => ⟨run.2 c first, none c first⟩, ?_⟩
  exact congrArg Prod.fst (scanToken_of_rest none)

/-- A stop is given again and again, and the reader does not move any more. -/
theorem next_advance_of_isStop (stop : r.next.1.isStop = true) (n : Nat) :
    (r.advance n).next = r.next := by
  induction n with
  | zero => rfl
  | succ n ih =>
    have here : (r.advance n).next.1.isStop = true := by rw [ih, stop]
    rw [advance_succ, next_next_of_isStop here, ih]

end Reader

/-- A run that has no token has none for ever after. -/
theorem TokenRun.answers_of_none {run : TokenRun} (none : run.next? = none) (n : Nat) :
    run.answers n = List.replicate n .none := by
  induction n with
  | zero => rfl
  | succ n ih => rw [answers, none, ih, List.replicate_succ]

/-- Requests are answered with the tokens that are next, one after the other. -/
theorem Reads.answers_eq (reads : Reads r ts r') (n : Nat) :
    (TokenRun.mk r false).answers (ts.length + n) =
      ts.map some ++ (TokenRun.mk r' false).answers n := by
  induction reads with
  | nil r => rw [List.length_nil, Nat.zero_add, List.map_nil, List.nil_append]
  | @cons r m r' t ts next goesOn _ ih =>
    have first : (TokenRun.mk r false).next? = some (t, ⟨m, false⟩) := by
      have here : r.next = (t, m) := next
      simp [TokenRun.next?, here, goesOn]
    rw [List.length_cons, Nat.add_right_comm]
    simp only [TokenRun.answers, first, ih, List.map_cons, List.cons_append]

/-- At a stop one request is answered, and no more. -/
theorem TokenRun.answers_of_isStop (stop : r.next.1.isStop = true) (n : Nat) :
    (TokenRun.mk r false).answers (n + 1) = some r.next.1 :: List.replicate n none := by
  have first : (TokenRun.mk r false).next? = some (r.next.1, ⟨r.next.2, true⟩) := by
    simp [next?, stop]
  have behind : (TokenRun.mk r.next.2 true).next? = none := by simp [next?]
  simp only [answers, first, answers_of_none behind]

/-- **Readers go on or rest.** Every reader of a text can be reached, and wherever it stands, its
next token takes it further on, or else is a stop. A stop takes nothing but blanks in front of the
end of the text or of a character that begins no token, and the reader gives it from then on,
at the same place. So all tokens of a reader are no more than one for each character in front of it
and then one stop, and there is none behind that, however often one is asked for. On a text with
offsets that fit into words the cursor gives the same, so it never goes back from a numeral. -/
theorem readers_go_on_or_rest :
    (∀ text r, Reader.Reachable text r ↔ r.text = text.toList) ∧
    ∀ r : Reader,
      (r.next.1.isStop = false ∧ r.offset < r.next.2.offset ∨
        r.next.1.isStop = true ∧
          (∃ blanks, r.unread = blanks ++ r.next.2.unread ∧ (∀ c ∈ blanks, isBlank c = true) ∧
            (∀ c ∈ r.next.2.unread.head?, isBlank c = false ∧ begins c = false) ∧
            r.next.1 = Token.stopBefore r.next.2.unread) ∧
          ∀ n, (r.advance n).next = r.next) ∧
      (utf8Length r.text < 2 ^ 32 → r.cursor.next? = some (r.next.1, r.next.2.cursor)) ∧
      ∃ ts stop, (TokenRun.mk r false).drain.1 = ts ++ [stop] ∧ stop.isStop = true ∧
        (∀ t ∈ ts, t.isStop = false) ∧ ts.length ≤ r.unread.length ∧
        ∀ n, (TokenRun.mk r false).answers (ts.length + (n + 1)) =
          ts.map some ++ some stop :: List.replicate n none := by
  refine ⟨fun text r => Reader.reachable_iff, fun r => ⟨?_, r.next?_cursor, ?_⟩⟩
  · cases stop : r.next.1.isStop with
    | false => exact Or.inl ⟨rfl, r.offset_lt_offset_next stop⟩
    | true =>
      exact Or.inr ⟨rfl, r.exists_blanks_of_isStop stop, r.next_advance_of_isStop stop⟩
  · obtain ⟨ts, last, reads, stop, all⟩ := r.exists_tokens_eq
    have short := reads.length_le
    refine ⟨ts, last.next.1, all, stop, fun t => reads.isStop_eq_false, by omega, fun n => ?_⟩
    rw [reads.answers_eq, TokenRun.answers_of_isStop stop]

/-- A reader within a numeral reads the digits that are left of it, and rests in front of a point.
-/
theorem readers_go_on_or_rest_midway :
    let r := (Reader.ofString "é1.5 .").seek 4
    let value := numeralValue ['5'] []
    r.unread = ['5', ' ', '.'] ∧ Reader.Reachable "é1.5 ." r ∧ r.offset < r.next.2.offset ∧
    utf8Length r.text < 2 ^ 32 ∧ r.cursor.next? = some (.number value, r.next.2.cursor) ∧
    (r.next.2.advance 3).next = r.next.2.next ∧
    (TokenRun.mk r false).answers 4 = [some (.number value), some .unreadable, none, none] := by
  intro r value
  obtain ⟨reachable, places⟩ := readers_go_on_or_rest
  obtain ⟨here, cursor, ts, stop, all, -, -, -, answers⟩ := places r
  have short : utf8Length r.text < 2 ^ 32 := by decide +kernel
  have first : r.next.1 = .number value := by decide +kernel
  have tokens : (TokenRun.mk r false).drain.1 = [.number value] ++ [.unreadable] := by
    decide +kernel
  obtain ⟨rfl, last⟩ := List.append_inj' (all.symm.trans tokens) rfl
  refine ⟨by decide, (reachable _ r).mpr rfl, ?_, short, first ▸ cursor short, ?_, ?_⟩
  · rcases here with ⟨-, further⟩ | ⟨stops, -⟩
    · exact further
    · rw [first] at stops
      cases stops
  · rcases (places r.next.2).1 with ⟨goesOn, -⟩ | ⟨-, -, again⟩
    · have stops : r.next.2.next.1.isStop = true := by decide +kernel
      rw [stops] at goesOn
      cases goesOn
    · exact again 3
  · rw [List.singleton_inj.mp last] at answers
    exact answers 2

end Progress

end Formula
