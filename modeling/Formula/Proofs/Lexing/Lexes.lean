import Formula.Proofs.Lexing.Lexeme
import Formula.Proofs.Stream.Reading

/-!
# Texts as lists of tokens

A text is split into blanks and lexemes, each lexeme as long as it can be. The split only looks one
character past a lexeme, so a text can be composed of pieces that have been split before, and what
follows a piece can be exchanged as long as its first character stays.

## Main definitions

* `Lexes` — the tokens of the front of a text, and what follows them

## Main results

* `reads_iff_lexes` — readers split texts
* `tokens_eq_append_endOfText_iff` — a text that is read to its end
* `Reader.tokens_eq_of_unread` — what a reader gives is decided by what it has not read
* `Lexes.exists_front` — what follows can be exchanged
-/

namespace Formula

/-- The tokens of the front of a text, and what of the text follows them. -/
inductive Lexes : List Char → List Token → List Char → Prop
  | nil (cs : List Char) : Lexes cs [] cs
  | cons {blanks l rest last : List Char} {t : Token} {ts : List Token} :
      (∀ c ∈ blanks, isBlank c = true) → Lexeme l t → (∀ c ∈ rest.head?, prolongs l c = false) →
      Lexes rest ts last → Lexes (blanks ++ (l ++ rest)) (t :: ts) last

section Lexes

variable {cs mid rest : List Char} {t : Token} {ts us : List Token}

/-- A lexeme behind blanks is the next token. -/
theorem scan_append {blanks l : List Char} (blank : ∀ c ∈ blanks, isBlank c = true)
    (lexeme : Lexeme l t) (stop : ∀ c ∈ rest.head?, prolongs l c = false) :
    scan (blanks ++ (l ++ rest)) = (t, rest) := by
  rw [scan, dropWhile_append_of_head blank lexeme.isBlank_head, lexeme.scanToken_append stop]

/-- The next token is a lexeme behind blanks. -/
theorem exists_lexeme_of_scan (scanned : scan cs = (t, rest)) (goesOn : t.isStop = false) :
    ∃ blanks l, cs = blanks ++ (l ++ rest) ∧ (∀ c ∈ blanks, isBlank c = true) ∧ Lexeme l t ∧
      ∀ c ∈ rest.head?, prolongs l c = false := by
  obtain ⟨l, text, lexeme, stop⟩ := exists_lexeme_of_scanToken scanned goesOn
  refine ⟨cs.takeWhile isBlank, l, ?_, fun _ => List.mem_takeWhile_imp, lexeme, stop⟩
  rw [← text, List.takeWhile_append_dropWhile]

/-- Nothing but blanks is left at the end of a text. -/
theorem scan_eq_endOfText_iff : (scan cs).1 = .endOfText ↔ ∀ c ∈ cs, isBlank c = true := by
  rw [← List.dropWhile_eq_nil_iff, scan]
  cases h : cs.dropWhile isBlank with
  | nil => simp [scanToken]
  | cons c cs =>
    simp only [scanToken, reduceCtorEq, iff_false]
    split
    · exact Token.noConfusion
    · split
      · exact Token.noConfusion
      · split <;> exact Token.noConfusion

/-- At a stop nothing but the blanks in front of it is taken. -/
theorem scan_snd_of_isStop (stop : (scan cs).1.isStop = true) :
    (scan cs).2 = cs.dropWhile isBlank := by
  rw [scan] at stop ⊢
  cases h : cs.dropWhile isBlank with
  | nil => rfl
  | cons c cs =>
    simp only [h, scanToken] at stop ⊢
    split at stop
    · cases stop
    · split at stop
      · cases stop
      · split at stop
        · cases stop
        · simp_all

/-- A stop is met again and again. -/
theorem scan_of_isStop (stop : (scan cs).1.isStop = true) : scan (scan cs).2 = scan cs := by
  rw [scan_snd_of_isStop stop, scan,
    dropWhile_eq_self_of_head fun _ => eq_false_of_mem_head?_dropWhile, scan]

/-- A reader that has come to a stop stays there. -/
theorem Reader.next_next_of_isStop {r : Reader} (stop : r.next.1.isStop = true) :
    r.next.2.next = r.next := by
  have again : scan (scan r.unread).2 = scan r.unread := scan_of_isStop stop
  simp only [Reader.next, again]

/-- What follows the tokens is an end piece of the text. -/
theorem Lexes.suffix (lexes : Lexes cs ts rest) : rest <:+ cs := by
  induction lexes with
  | nil cs => exact List.suffix_rfl
  | cons _ _ _ _ ih =>
    exact ih.trans ((List.suffix_append _ _).trans (List.suffix_append _ _))

/-- Readers split their texts into tokens. -/
theorem reads_iff_lexes {r r' : Reader} :
    Reads r ts r' ↔ r.text = r'.text ∧ Lexes r.unread ts r'.unread := by
  constructor
  · intro reads
    induction reads with
    | nil r => exact ⟨rfl, .nil _⟩
    | @cons r m r' t ts next goesOn _ ih =>
      obtain ⟨rfl, rfl⟩ := Reader.next_eq_iff.mp next
      obtain ⟨blanks, l, text, blank, lexeme, stop⟩ := exists_lexeme_of_scan rfl goesOn
      refine ⟨ih.1, ?_⟩
      rw [text]
      exact .cons blank lexeme stop ih.2
  · rintro ⟨same, lexes⟩
    obtain ⟨text, unread, suffix⟩ := r
    obtain ⟨text', unread', suffix'⟩ := r'
    obtain rfl : text = text' := same
    change Lexes unread ts unread' at lexes
    induction lexes with
    | nil cs => exact .nil _
    | @cons blanks l mid last t ts blank lexeme stop _ ih =>
      have scanned := scan_append blank lexeme stop
      have later : mid <:+ text :=
        ((List.suffix_append l mid).trans (List.suffix_append blanks _)).trans suffix
      refine .cons (m := ⟨text, mid, later⟩) ?_ lexeme.isStop_eq_false (ih later suffix')
      change (Reader.mk text (blanks ++ (l ++ mid)) suffix).next = _
      simp [Reader.next, scanned]

/-- A text is read to its end if nothing but blanks follows its tokens. -/
theorem tokens_eq_append_endOfText_iff {line : String} :
    tokens line = ts ++ [.endOfText] ↔
      ∃ rest, Lexes line.toList ts rest ∧ ∀ c ∈ rest, isBlank c = true := by
  rw [tokens, Reader.tokens_eq_append_iff rfl]
  constructor
  · rintro ⟨r, reads, ending⟩
    exact ⟨r.unread, (reads_iff_lexes.mp reads).2, scan_eq_endOfText_iff.mp ending⟩
  · rintro ⟨rest, lexes, blank⟩
    exact ⟨⟨line.toList, rest, lexes.suffix⟩, reads_iff_lexes.mpr ⟨rfl, lexes⟩,
      scan_eq_endOfText_iff.mpr blank⟩

/-- What a reader gives is decided by what it has not read. -/
theorem Reader.tokens_eq_of_unread {r r' : Reader} (same : r.unread = r'.unread) :
    r.tokens = r'.tokens := by
  obtain ⟨ts, last, reads, stop, all⟩ := r.exists_tokens_eq
  have lexes := (reads_iff_lexes.mp reads).2
  rw [same] at lexes
  have reads' : Reads r' ts ⟨r'.text, last.unread, lexes.suffix.trans r'.unread_suffix⟩ :=
    reads_iff_lexes.mpr ⟨rfl, lexes⟩
  exact all.trans ((Reader.tokens_eq_append_iff stop).mpr ⟨_, reads', rfl⟩).symm

/-- The tokens of a text are those of its front, and those of what follows. -/
theorem Lexes.tokens_eq {line : String} (lexes : Lexes line.toList ts rest) :
    tokens line = ts ++ tokens (String.ofList rest) := by
  have reads : Reads (Reader.ofString line) ts ⟨line.toList, rest, lexes.suffix⟩ :=
    reads_iff_lexes.mpr ⟨rfl, lexes⟩
  rw [tokens, reads.tokens_eq, tokens]
  exact congrArg (ts ++ ·) (Reader.tokens_eq_of_unread (by simp [Reader.ofString]))

/-! ### Pieces of texts -/

/-- A lexeme that nothing prolongs is the first token. -/
theorem Lexes.front {l : List Char} (lexeme : Lexeme l t)
    (stop : ∀ c ∈ cs.head?, prolongs l c = false) (lexes : Lexes cs ts rest) :
    Lexes (l ++ cs) (t :: ts) rest := by
  have nothing : ∀ c ∈ ([] : List Char), isBlank c = true := by simp
  exact .cons nothing lexeme stop lexes

/-- Blanks in front of a token have no meaning. -/
theorem Lexes.blanks {blanks : List Char} (blank : ∀ c ∈ blanks, isBlank c = true)
    (lexes : Lexes cs (t :: ts) rest) : Lexes (blanks ++ cs) (t :: ts) rest := by
  cases lexes with
  | cons more lexeme stop lexes =>
    rw [← List.append_assoc]
    exact .cons (List.forall_mem_append.mpr ⟨blank, more⟩) lexeme stop lexes

/-- One split piece after another is a split piece. -/
theorem Lexes.append (first : Lexes cs ts mid) (second : Lexes mid us rest) :
    Lexes cs (ts ++ us) rest := by
  induction first with
  | nil _ => exact second
  | cons blank lexeme stop _ ih => exact .cons blank lexeme stop (ih second)

/-- What follows a piece can be exchanged, as long as its first character stays or none is left. -/
theorem Lexes.exists_front (lexes : Lexes cs ts rest) :
    ∃ front, cs = front ++ rest ∧ ∀ other : List Char,
      (∀ c ∈ other.head?, c ∈ rest.head?) → Lexes (front ++ other) ts other := by
  induction lexes with
  | nil cs => exact ⟨[], rfl, fun other _ => .nil other⟩
  | @cons blanks l mid rest t ts blank lexeme stop _ ih =>
    obtain ⟨front, rfl, exchange⟩ := ih
    refine ⟨blanks ++ (l ++ front), by simp, fun other head => ?_⟩
    -- The lexeme is ended by one character, and that one is the same as before.
    have stop' : ∀ c ∈ (front ++ other).head?, prolongs l c = false := by
      intro c member
      cases front with
      | nil => exact stop c (head c member)
      | cons c' front => exact stop c member
    rw [List.append_assoc, List.append_assoc]
    exact .cons blank lexeme stop' (exchange other head)

/-- Apart from blanks, what follows the tokens of a text is an end piece of the text. -/
theorem Lexes.dropWhile_isBlank_suffix (lexes : Lexes cs ts rest) :
    rest.dropWhile isBlank <:+ cs.dropWhile isBlank := by
  induction lexes with
  | nil cs => exact List.suffix_rfl
  | @cons blanks l mid rest t ts blank lexeme stop _ ih =>
    rw [dropWhile_append_of_head blank lexeme.isBlank_head]
    exact ih.trans ((List.dropWhile_suffix isBlank).trans (List.suffix_append l mid))

end Lexes

end Formula
