import Formula.Proofs.Lexing.Lexes

/-!
# Texts that stand apart

A blank or a symbol prolongs no lexeme, so a text in front of one is split as if it were alone.
Texts are put together at such characters, and their tokens are put together with them.

## Main definitions

* `separates` — does a character stand apart from whatever is before it?
* `LexesApart` — the tokens of a text in front of a separator

## Main results

* `prolongs_of_separates` — separators prolong nothing
* `Lexes.exists_apart` — the front of a text stands apart from what follows its tokens
* `LexesApart.append` — texts can be put together at a separator
-/

namespace Formula

/-- Does the character stand apart from the lexeme before it, whatever that is? -/
def separates (c : Char) : Bool := isBlank c || (Symbol.ofChar? c).isSome

theorem separates_iff {c : Char} :
    separates c = true ↔ (c = ' ' ∨ c = '\t' ∨ c = '\n') ∨ ∃ s : Symbol, c = s.char := by
  simp [separates, isBlank_iff, Option.isSome_iff_exists, Symbol.ofChar?_eq_some_iff]

/-- Blanks and symbols prolong nothing. -/
theorem prolongs_of_separates {c : Char} (separator : separates c = true) (l : List Char) :
    prolongs l c = false := by
  -- A number goes on with digits and a point, a name with the characters of names.
  have outside : c.isDigit = false ∧ (c == '.') = false ∧ isNameChar c = false := by
    rcases separates_iff.mp separator with (rfl | rfl | rfl) | ⟨s, rfl⟩
    · decide
    · decide
    · decide
    · rcases s with (_ | _ | _ | _ | _) | _ | _ | _ <;> decide
  cases l with
  | nil => rfl
  | cons first rest => simp [prolongs, outside]

/-- A text behind blanks begins with a separator. -/
theorem separates_of_mem_head?_append {blanks cs : List Char} (some : blanks ≠ [])
    (blank : ∀ c ∈ blanks, isBlank c = true) : ∀ c ∈ (blanks ++ cs).head?, separates c = true := by
  intro c member
  obtain ⟨b, blanks, rfl⟩ := List.exists_cons_of_ne_nil some
  obtain rfl := Option.some.inj member
  simp [separates, blank b List.mem_cons_self]

/-- A text that begins with blanks and then a separator begins with a separator. -/
theorem separates_of_mem_head? {blanks cs : List Char} {c d : Char}
    (blank : ∀ c ∈ blanks, isBlank c = true) (separator : separates c = true)
    (member : d ∈ (blanks ++ c :: cs).head?) : separates d = true := by
  cases blanks with
  | nil =>
    obtain rfl := Option.some.inj member
    exact separator
  | cons b blanks => exact separates_of_mem_head?_append (List.cons_ne_nil b blanks) blank d member

/-- A symbol can stand in front of any text. -/
theorem Lexes.symbol (s : Symbol) {cs rest : List Char} {ts : List Token}
    (lexes : Lexes cs ts rest) : Lexes (s.char :: cs) (.symbol s :: ts) rest := by
  apply lexes.front (.symbol s)
  intro c _
  simp [prolongs, s.isDigit_char, s.isLetter_char]

/-- The text has the tokens in front of every separator, and at the end. -/
def LexesApart (cs : List Char) (ts : List Token) : Prop :=
  ∀ rest : List Char, (∀ c ∈ rest.head?, separates c = true) → Lexes (cs ++ rest) ts rest

section Apart

variable {cs ds l : List Char} {c : Char} {t : Token} {ts us : List Token}

theorem LexesApart.nil : LexesApart [] [] := fun rest _ => .nil rest

/-- At the end nothing is left. -/
theorem LexesApart.lexes (apart : LexesApart cs ts) : Lexes cs ts [] := by
  have ending : ∀ c ∈ ([] : List Char).head?, separates c = true := by simp
  have lexes := apart [] ending
  rwa [List.append_nil] at lexes

/-- Nothing but its tokens is read from a text that is split like that, and then its end. -/
theorem LexesApart.tokens_eq {line : String} (apart : LexesApart line.toList ts) :
    tokens line = ts ++ [.endOfText] :=
  tokens_eq_append_endOfText_iff.mpr ⟨[], apart.lexes, by simp⟩

/-- What follows the tokens of a text can be exchanged for anything that begins with a separator. -/
theorem Lexes.exists_apart {rest : List Char} (lexes : Lexes cs ts rest) :
    ∃ front, cs = front ++ rest ∧ LexesApart front ts := by
  induction lexes with
  | nil cs => exact ⟨[], rfl, .nil⟩
  | @cons blanks l mid rest t ts blank lexeme stop _ ih =>
    obtain ⟨front, rfl, apart⟩ := ih
    refine ⟨blanks ++ (l ++ front), by simp, fun other separated => ?_⟩
    -- Behind the lexeme there is the same character as before, or a separator.
    have stop' : ∀ c ∈ (front ++ other).head?, prolongs l c = false := by
      intro c member
      cases front with
      | nil => exact prolongs_of_separates (separated c member) l
      | cons c' front => exact stop c member
    rw [List.append_assoc, List.append_assoc]
    exact .cons blank lexeme stop' (apart other separated)

/-- A lexeme in front of a separator is a token. -/
theorem Lexeme.apart (lexeme : Lexeme l t) : LexesApart l [t] := by
  intro rest separated
  apply (Lexes.nil rest).front lexeme
  intro c member
  exact prolongs_of_separates (separated c member) l

/-- A text can follow a lexeme that its first character does not prolong. -/
theorem LexesApart.front (lexeme : Lexeme l t) (stop : prolongs l c = false)
    (apart : LexesApart (c :: cs) ts) : LexesApart (l ++ c :: cs) (t :: ts) := by
  intro rest separated
  rw [List.append_assoc]
  apply (apart rest separated).front lexeme
  intro d member
  obtain rfl := Option.some.inj member
  exact stop

/-- A text that begins with a separator can follow any text. -/
theorem LexesApart.append (first : LexesApart cs ts) (separator : separates c = true)
    (second : LexesApart (c :: ds) us) : LexesApart (cs ++ c :: ds) (ts ++ us) := by
  intro rest separated
  rw [List.append_assoc]
  -- For the first text, the rest begins with the separator.
  refine (first (c :: ds ++ rest) fun d member => ?_).append (second rest separated)
  obtain rfl := Option.some.inj member
  exact separator

theorem LexesApart.symbol (s : Symbol) (apart : LexesApart cs ts) :
    LexesApart (s.char :: cs) (.symbol s :: ts) :=
  fun rest separated => (apart rest separated).symbol s

/-- Blanks in front of a token have no meaning. -/
theorem LexesApart.blanks {blanks : List Char} (blank : ∀ c ∈ blanks, isBlank c = true)
    (apart : LexesApart cs (t :: ts)) : LexesApart (blanks ++ cs) (t :: ts) := by
  intro rest separated
  rw [List.append_assoc]
  exact (apart rest separated).blanks blank

theorem LexesApart.space (apart : LexesApart cs (t :: ts)) : LexesApart (' ' :: cs) (t :: ts) := by
  have blank : ∀ c ∈ [' '], isBlank c = true := by simp [isBlank]
  exact apart.blanks blank

end Apart

end Formula
