import Formula.Proofs.Lexing.Lexes

/-!
# The decomposition of a text

A text falls into lexemes, blanks between them, and a rest that begins no token or is empty. Every
run of blanks and every lexeme is as long as it can be, and that leaves one way to decompose a text
only. The tokens of the text are those of the lexemes, and a stop that tells whether there is a
rest; a reader stands right behind a lexeme when it has given its token, and in front of the rest
when it has stopped.

## Main definitions

* `Piece` — a lexeme with its token and the blanks in front of it
* `Decomposes` — a text is made of some pieces, blanks and a rest
* `Reader.advance` — a reader some tokens further on

## Main results

* `exists_decomposes`, `Decomposes.unique` — a text is decomposed in one way
* `Decomposes.tokens_eq`, `Decomposes.offset_advance` — its tokens, and where each of them ends
-/

namespace Formula

/-- The lexeme of one token, and the blanks in front of it. -/
structure Piece where
  blanks : List Char
  lexeme : List Char
  token : Token
deriving DecidableEq

/-- The part of the text that a piece takes. -/
def Piece.text (p : Piece) : List Char := p.blanks ++ p.lexeme

/-- Does a token begin with the character? -/
def begins (c : Char) : Bool := c.isDigit || isLetter c || (Symbol.ofChar? c).isSome

/-- The blanks at the front of a text, all of them: what follows begins with no other one. -/
def BlankRun (blanks rest : List Char) : Prop :=
  (∀ c ∈ blanks, isBlank c = true) ∧ ∀ c ∈ rest.head?, isBlank c = false

instance (blanks rest : List Char) : Decidable (BlankRun blanks rest) :=
  decidable_of_iff (blanks.all isBlank = true ∧ rest.head?.any isBlank = false)
    (by cases rest <;> simp [BlankRun])

/-- A text is made of pieces whose lexemes cannot be extended, then blanks, then a rest that begins
no token. -/
inductive Decomposes : List Char → List Piece → List Char → List Char → Prop
  | stop {blanks rest : List Char} :
      BlankRun blanks rest → (∀ c ∈ rest.head?, begins c = false) →
      Decomposes (blanks ++ rest) [] blanks rest
  | piece {p : Piece} {cs : List Char} {pieces : List Piece} {blanks rest : List Char} :
      BlankRun p.blanks (p.lexeme ++ cs) → Lexeme p.lexeme p.token →
      (∀ c ∈ cs.head?, prolongs p.lexeme c = false) →
      Decomposes cs pieces blanks rest → Decomposes (p.text ++ cs) (p :: pieces) blanks rest

/-- The stop in front of a rest. -/
def Token.stopBefore (rest : List Char) : Token := if rest = [] then .endOfText else .unreadable

/-- The reader some tokens further on. -/
def Reader.advance (r : Reader) : Nat → Reader
  | 0 => r
  | n + 1 => r.next.2.advance n

section Boundaries

variable {cs l l' rest rest' blanks blanks' : List Char} {t t' : Token}

theorem Token.isStop_stopBefore (rest : List Char) : (Token.stopBefore rest).isStop = true := by
  unfold Token.stopBefore
  split <;> rfl

/-- A character that begins no token is unreadable, and any other one is not. -/
theorem isStop_scanToken (c : Char) (cs : List Char) :
    (scanToken (c :: cs)).1.isStop = !begins c := by
  unfold begins
  rw [scanToken]
  split
  · next digit => simp [digit, Token.isStop]
  · split
    · next letter => simp [letter, Token.isStop]
    · next noDigit noLetter => cases h : Symbol.ofChar? c <;> simp [noDigit, noLetter, Token.isStop]

-- A null character is no end of the text, and a digit beyond ASCII no number.
example : ['\x00', '\r', '.', '_', '٣'].any begins = false := by decide +kernel

/-- Nothing is taken of a rest that begins no token. -/
theorem scanToken_of_rest (none : ∀ c ∈ rest.head?, begins c = false) :
    scanToken rest = (Token.stopBefore rest, rest) := by
  cases rest with
  | nil => rfl
  | cons c cs =>
    have plain := none c rfl
    simp only [begins, Bool.or_eq_false_iff, Option.isSome_eq_false_iff, Option.isNone_iff_eq_none]
      at plain
    simp [scanToken, plain, Token.stopBefore]

/-- Only one run of blanks is all of those at the front of a text. -/
theorem BlankRun.unique (run : BlankRun blanks rest) (run' : BlankRun blanks' rest')
    (same : blanks ++ rest = blanks' ++ rest') : blanks = blanks' ∧ rest = rest' :=
  append_inj_of_head run.1 run.2 run'.1 run'.2 same

/-- What is taken as blanks from the front of a text is all of them. -/
theorem blankRun_takeWhile (cs : List Char) :
    BlankRun (cs.takeWhile isBlank) (cs.dropWhile isBlank) :=
  ⟨fun _ => List.mem_takeWhile_imp, fun _ => eq_false_of_mem_head?_dropWhile⟩

/-- Where reading stops, what is behind the blanks begins no token. -/
theorem begins_of_isStop (stop : (scan cs).1.isStop = true) :
    ∀ c ∈ (cs.dropWhile isBlank).head?, begins c = false := by
  intro c member
  obtain ⟨rest, text⟩ := List.head?_eq_some_iff.mp (Option.mem_def.mp member)
  have first := isStop_scanToken c rest
  rwa [← text, ← scan, stop, eq_comm, Bool.not_eq_true'] at first

/-- Only one lexeme at the front of a text cannot be extended. -/
theorem Lexeme.unique_front (lexeme : Lexeme l t) (stop : ∀ c ∈ rest.head?, prolongs l c = false)
    (lexeme' : Lexeme l' t') (stop' : ∀ c ∈ rest'.head?, prolongs l' c = false)
    (same : l ++ rest = l' ++ rest') : l = l' ∧ t = t' ∧ rest = rest' := by
  have scanned := lexeme.scanToken_append stop
  rw [same, lexeme'.scanToken_append stop'] at scanned
  obtain ⟨rfl, rfl⟩ := Prod.mk.inj scanned
  exact ⟨List.append_cancel_right same, rfl, rfl⟩

/-- A lexeme is no rest. -/
theorem Lexeme.not_rest (lexeme : Lexeme l t) (stop : ∀ c ∈ cs.head?, prolongs l c = false) :
    ¬∀ c ∈ (l ++ cs).head?, begins c = false := by
  intro none
  have scanned := lexeme.scanToken_append stop
  rw [scanToken_of_rest none] at scanned
  have isStop := Token.isStop_stopBefore (l ++ cs)
  rw [(Prod.mk.inj scanned).1, lexeme.isStop_eq_false] at isStop
  cases isStop

end Boundaries

section Decompositions

variable {cs rest blanks rest' blanks' : List Char} {pieces pieces' front back : List Piece}

/-- Nothing is lost, and nothing is taken twice. -/
theorem Decomposes.text_eq (decomposes : Decomposes cs pieces blanks rest) :
    cs = pieces.flatMap Piece.text ++ (blanks ++ rest) := by
  induction decomposes with
  | stop _ _ => rfl
  | piece _ _ _ _ ih => rw [List.flatMap_cons, List.append_assoc, ← ih]

/-- A text is decomposed in one way at most. -/
theorem Decomposes.unique (first : Decomposes cs pieces blanks rest)
    (second : Decomposes cs pieces' blanks' rest') :
    pieces' = pieces ∧ blanks' = blanks ∧ rest' = rest := by
  induction first generalizing pieces' with
  | @stop blanks rest run none =>
    generalize text : blanks ++ rest = cs at second
    cases second with
    | stop run' _ =>
      obtain ⟨rfl, rfl⟩ := run.unique run' text
      exact ⟨rfl, rfl, rfl⟩
    | @piece p cs _ _ _ run' lexeme stop _ =>
      rw [Piece.text, List.append_assoc] at text
      obtain ⟨-, rfl⟩ := run.unique run' text
      exact absurd none (lexeme.not_rest stop)
  | @piece p cs pieces blanks rest run lexeme stop _ ih =>
    generalize text : p.text ++ cs = whole at second
    rw [Piece.text, List.append_assoc] at text
    cases second with
    | stop run' none =>
      obtain ⟨-, rfl⟩ := run.unique run' text
      exact absurd none (lexeme.not_rest stop)
    | @piece p' cs' _ _ _ run' lexeme' stop' later =>
      rw [Piece.text, List.append_assoc] at text
      -- Blanks, lexeme and what follows them agree one after the other.
      obtain ⟨sameBlanks, behind⟩ := run.unique run' text
      obtain ⟨sameLexeme, sameToken, rfl⟩ := lexeme.unique_front stop lexeme' stop' behind
      obtain ⟨rfl, rfl, rfl⟩ := ih later
      obtain ⟨_, _, _⟩ := p
      obtain ⟨_, _, _⟩ := p'
      simp_all

/-- Every text is decomposed. -/
theorem exists_decomposes (cs : List Char) :
    ∃ pieces blanks rest, Decomposes cs pieces blanks rest := by
  rcases scanned : scan cs with ⟨t, behind⟩
  cases stop : t.isStop with
  | true =>
    have none := begins_of_isStop (show (scan cs).1.isStop = true by rw [scanned, stop])
    have decomposes := Decomposes.stop (blankRun_takeWhile cs) none
    rw [List.takeWhile_append_dropWhile] at decomposes
    exact ⟨_, _, _, decomposes⟩
  | false =>
    -- The characters behind the next token are fewer, and they are decomposed alone.
    have shorter : behind.length < cs.length := by
      have goesOn : (scan cs).1.isStop = false := by rw [scanned, stop]
      have lt := length_scan_lt goesOn
      rwa [scanned] at lt
    obtain ⟨blanks, l, text, blank, lexeme, boundary⟩ := exists_lexeme_of_scan scanned stop
    obtain ⟨pieces, last, rest, decomposes⟩ := exists_decomposes behind
    have run : BlankRun blanks (l ++ behind) := ⟨blank, lexeme.isBlank_head⟩
    have whole := Decomposes.piece (p := ⟨blanks, l, t⟩) run lexeme boundary decomposes
    rw [Piece.text, List.append_assoc, ← text] at whole
    exact ⟨_, _, _, whole⟩
termination_by cs.length
decreasing_by exact shorter

/-- The lexemes of a decomposition are those that are split off one after the other. -/
theorem Decomposes.lexes (decomposes : Decomposes cs (front ++ back) blanks rest) :
    ∃ mid, Lexes cs (front.map Piece.token) mid ∧ Decomposes mid back blanks rest := by
  induction front generalizing cs with
  | nil => exact ⟨cs, .nil cs, decomposes⟩
  | cons p front ih =>
    cases decomposes with
    | piece run lexeme stop later =>
      obtain ⟨mid, lexes, decomposes⟩ := ih later
      rw [Piece.text, List.append_assoc]
      exact ⟨mid, .cons run.1 lexeme stop lexes, decomposes⟩

/-- In front of a piece its token is next. -/
theorem Decomposes.scan_fst_of_cons {p : Piece}
    (decomposes : Decomposes cs (p :: pieces) blanks rest) : (scan cs).1 = p.token := by
  cases decomposes with
  | piece run lexeme stop _ =>
    rw [Piece.text, List.append_assoc, scan_append run.1 lexeme stop]

/-- At the end of the pieces a stop is met, and the blanks in front of it are taken. -/
theorem Decomposes.scan_eq_of_nil (decomposes : Decomposes cs [] blanks rest) :
    scan cs = (Token.stopBefore rest, rest) := by
  cases decomposes with
  | stop run none => rw [scan, dropWhile_append_of_head run.1 run.2, scanToken_of_rest none]

end Decompositions

/-! ### Readers -/

section Readers

variable {r r' : Reader} {ts : List Token} {text : String} {pieces front back : List Piece}
variable {blanks rest : List Char}

/-- Reading some tokens leads as many tokens further on. -/
theorem Reads.advance_eq (reads : Reads r ts r') : r.advance ts.length = r' := by
  induction reads with
  | nil r => rfl
  | @cons r m r' t ts next _ _ ih =>
    have behind : r.next.2 = m := congrArg Prod.snd next
    rw [List.length_cons, Reader.advance, behind, ih]

/-- After the tokens of some pieces a reader stands behind them. -/
theorem Decomposes.exists_reads (decomposes : Decomposes text.toList (front ++ back) blanks rest) :
    ∃ r, Reads (Reader.ofString text) (front.map Piece.token) r ∧
      Decomposes r.unread back blanks rest := by
  obtain ⟨mid, lexes, behind⟩ := decomposes.lexes
  exact ⟨⟨text.toList, mid, lexes.suffix⟩, reads_iff_lexes.mpr ⟨rfl, lexes⟩, behind⟩

/-- The tokens of a text are those of its pieces, and a stop. -/
theorem Decomposes.tokens_eq (decomposes : Decomposes text.toList pieces blanks rest) :
    tokens text = pieces.map Piece.token ++ [Token.stopBefore rest] := by
  rw [← List.append_nil pieces] at decomposes
  obtain ⟨r, reads, behind⟩ := decomposes.exists_reads
  rw [tokens, Reader.tokens_eq_append_iff (Token.isStop_stopBefore rest)]
  exact ⟨r, reads, congrArg Prod.fst behind.scan_eq_of_nil⟩

/-- The reader that has given the tokens of some pieces has the others in front of it. -/
theorem Decomposes.unread_advance (decomposes : Decomposes text.toList (front ++ back) blanks rest) :
    Decomposes ((Reader.ofString text).advance front.length).unread back blanks rest := by
  obtain ⟨r, reads, behind⟩ := decomposes.exists_reads
  have there := reads.advance_eq
  rw [List.length_map] at there
  rwa [there]

theorem Reader.advance_succ (r : Reader) (n : Nat) : r.advance (n + 1) = (r.advance n).next.2 := by
  induction n generalizing r with
  | zero => rfl
  | succ n ih => exact ih r.next.2

@[simp] theorem Reader.text_advance (r : Reader) (n : Nat) : (r.advance n).text = r.text := by
  induction n generalizing r with
  | zero => rfl
  | succ n ih => rw [Reader.advance, ih, Reader.text_next]

/-- It stands at the end of the last of these lexemes. -/
theorem Decomposes.offset_advance (decomposes : Decomposes text.toList (front ++ back) blanks rest) :
    ((Reader.ofString text).advance front.length).offset =
      utf8Length (front.flatMap Piece.text) := by
  have total := congrArg utf8Length decomposes.text_eq
  have left := congrArg utf8Length decomposes.unread_advance.text_eq
  simp only [List.flatMap_append, utf8Length_append] at total left
  rw [Reader.offset, Reader.text_advance, Reader.text_ofString, left]
  omega

/-- When it has given the stop, it stands in front of the rest. -/
theorem Decomposes.next_advance (decomposes : Decomposes text.toList pieces blanks rest) :
    ((Reader.ofString text).advance pieces.length).next.1 = Token.stopBefore rest ∧
      ((Reader.ofString text).advance pieces.length).next.2.unread = rest ∧
      ((Reader.ofString text).advance pieces.length).next.2.offset =
        utf8Length (pieces.flatMap Piece.text ++ blanks) := by
  have whole := decomposes
  rw [← List.append_nil pieces] at whole
  have scanned := whole.unread_advance.scan_eq_of_nil
  have unread : ((Reader.ofString text).advance pieces.length).next.2.unread = rest :=
    congrArg Prod.snd scanned
  refine ⟨congrArg Prod.fst scanned, unread, ?_⟩
  have total := congrArg utf8Length decomposes.text_eq
  rw [← List.append_assoc, utf8Length_append] at total
  rw [Reader.offset, unread, Reader.text_next, Reader.text_advance, Reader.text_ofString]
  omega

end Readers

end Formula
