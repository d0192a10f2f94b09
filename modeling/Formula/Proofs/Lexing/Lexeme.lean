import Mathlib.Data.List.TakeWhile
import Formula.Token.Scan

/-!
# Lexemes

A lexeme is the text of one token, without blanks. What a lexeme is, and which characters could
prolong it, is said here without any scanning; the scanner takes a lexeme from the front of a text
exactly if the next character does not prolong it.

## Main definitions

* `Lexeme` — the texts of the tokens
* `prolongs` — could a character be part of the lexeme it follows?

## Main results

* `Lexeme.scanToken_append` — the scanner takes a lexeme that the next character does not prolong
* `exists_lexeme_of_scanToken` — and it takes nothing else
* `Lexeme.prolongs_of_append` — a lexeme is prolonged by its own characters
-/

namespace Formula

/-! ### Kinds of characters

A digit, a letter, a symbol and a blank are four different things. -/

theorem isLetter_of_isDigit {c : Char} (digit : c.isDigit = true) : isLetter c = false := by
  -- There are ten digits, and none of them is a letter.
  have range := Char.isDigit_iff_toNat.mp digit
  have all : ∀ n < '9'.toNat + 1, '0'.toNat ≤ n → isLetter (Char.ofNat n) = false := by decide
  have here := all c.toNat (Nat.lt_succ_of_le range.2) range.1
  rwa [Char.ofNat_toNat] at here

theorem isDigit_of_isLetter {c : Char} (letter : isLetter c = true) : c.isDigit = false := by
  rw [← Bool.not_eq_true]
  intro digit
  rw [isLetter_of_isDigit digit] at letter
  cases letter

theorem isBlank_iff {c : Char} : isBlank c = true ↔ c = ' ' ∨ c = '\t' ∨ c = '\n' := by
  simp [isBlank, or_assoc]

theorem isBlank_of_isDigit {c : Char} (digit : c.isDigit = true) : isBlank c = false := by
  rw [← Bool.not_eq_true, isBlank_iff]
  rintro (rfl | rfl | rfl) <;> exact absurd digit (by decide)

theorem isBlank_of_isLetter {c : Char} (letter : isLetter c = true) : isBlank c = false := by
  rw [← Bool.not_eq_true, isBlank_iff]
  rintro (rfl | rfl | rfl) <;> exact absurd letter (by decide)

theorem isNameChar_of_isDigit {c : Char} (digit : c.isDigit = true) : isNameChar c = true := by
  have range := Char.isDigit_iff_toNat.mp digit
  have ascii : c.toNat < 0x80 := Nat.lt_of_le_of_lt range.2 (by decide)
  rw [isNameChar, isNumeric_eq_isDigit ascii, digit, Bool.or_true, Bool.true_or]

namespace Symbol

theorem isDigit_char (s : Symbol) : s.char.isDigit = false := by
  rcases s with (_ | _ | _ | _ | _) | _ | _ | _ <;> rfl

theorem isLetter_char (s : Symbol) : isLetter s.char = false := by
  rcases s with (_ | _ | _ | _ | _) | _ | _ | _ <;> decide

theorem isBlank_char (s : Symbol) : isBlank s.char = false := by
  rcases s with (_ | _ | _ | _ | _) | _ | _ | _ <;> decide

end Symbol

/-! ### Runs of characters -/

section Runs

variable {α : Type} {p : α → Bool} {l l' rest rest' : List α}

theorem takeWhile_eq_nil_of_head (stop : ∀ c ∈ rest.head?, p c = false) :
    rest.takeWhile p = [] := by
  cases rest with
  | nil => rfl
  | cons c rest => exact List.takeWhile_cons_of_neg (by simp [stop c rfl])

theorem dropWhile_eq_self_of_head (stop : ∀ c ∈ rest.head?, p c = false) :
    rest.dropWhile p = rest := by
  cases rest with
  | nil => rfl
  | cons c rest => exact List.dropWhile_cons_of_neg (by simp [stop c rfl])

theorem takeWhile_append_of_head (all : ∀ c ∈ l, p c = true)
    (stop : ∀ c ∈ rest.head?, p c = false) : (l ++ rest).takeWhile p = l := by
  rw [List.takeWhile_append_of_pos all, takeWhile_eq_nil_of_head stop, List.append_nil]

theorem dropWhile_append_of_head (all : ∀ c ∈ l, p c = true)
    (stop : ∀ c ∈ rest.head?, p c = false) : (l ++ rest).dropWhile p = rest := by
  rw [List.dropWhile_append_of_pos all, dropWhile_eq_self_of_head stop]

/-- Only one run of characters is all of those at the front of a text. -/
theorem append_inj_of_head (all : ∀ c ∈ l, p c = true) (stop : ∀ c ∈ rest.head?, p c = false)
    (all' : ∀ c ∈ l', p c = true) (stop' : ∀ c ∈ rest'.head?, p c = false)
    (same : l ++ rest = l' ++ rest') : l = l' ∧ rest = rest' := by
  have front := takeWhile_append_of_head all stop
  have behind := dropWhile_append_of_head all stop
  rw [same, takeWhile_append_of_head all' stop'] at front
  rw [same, dropWhile_append_of_head all' stop'] at behind
  exact ⟨front.symm, behind.symm⟩

/-- Two ways to cut a list in two, one of them in front of an element. -/
theorem append_eq_append_cons {a b c d : List α} {x : α} (same : a ++ b = c ++ x :: d) :
    (∃ more, a = c ++ x :: more ∧ d = more ++ b) ∨ ∃ more, c = a ++ more ∧ b = more ++ x :: d := by
  rcases List.append_eq_append_iff.mp same with ⟨more, rfl, rfl⟩ | ⟨more, rfl, behind⟩
  · exact Or.inr ⟨more, rfl, rfl⟩
  · cases more with
    | nil => exact Or.inr ⟨[], by simp, by simpa using behind.symm⟩
    | cons y more =>
      obtain ⟨rfl, rfl⟩ := List.cons.inj behind
      exact Or.inl ⟨more, rfl, rfl⟩

/-- A run of characters stops in front of a character of another kind. -/
theorem eq_false_of_mem_head?_dropWhile {c : α} (member : c ∈ (l.dropWhile p).head?) :
    p c = false := by
  have stop := List.head?_dropWhile_not p l
  rw [Option.mem_def.mp member] at stop
  exact stop

end Runs

/-! ### Lexemes and what prolongs them -/

/-- The texts of the tokens, each with its token. -/
inductive Lexeme : List Char → Token → Prop
  | integer {digits : List Char} : digits ≠ [] → (∀ c ∈ digits, c.isDigit = true) →
      Lexeme digits (.number (numeralValue digits []))
  | decimal {whole fraction : List Char} : whole ≠ [] → (∀ c ∈ whole, c.isDigit = true) →
      (∀ c ∈ fraction, c.isDigit = true) →
      Lexeme (whole ++ '.' :: fraction) (.number (numeralValue whole fraction))
  | name {first : Char} {rest : List Char} : isLetter first = true →
      (∀ c ∈ rest, isNameChar c = true) →
      Lexeme (first :: rest) (.name (String.ofList (first :: rest)))
  | symbol (s : Symbol) : Lexeme [s.char] (.symbol s)

/-- Could the character be part of the lexeme it follows? A digit can follow in a number, and a
point in one that has none yet; letters, numeric characters and underscores can follow in a name. -/
def prolongs (lexeme : List Char) (c : Char) : Bool :=
  match lexeme with
  | [] => false
  | first :: rest =>
    if first.isDigit then c.isDigit || (c == '.' && !rest.contains '.')
    else isLetter first && isNameChar c

section Lexemes

variable {l rest : List Char} {t : Token}

theorem Lexeme.ne_nil (lexeme : Lexeme l t) : l ≠ [] := by
  cases lexeme with
  | integer some _ => exact some
  | decimal some _ _ => simp
  | name _ _ => simp
  | symbol _ => simp

/-- No text that begins with a lexeme begins with a blank. -/
theorem Lexeme.isBlank_head (lexeme : Lexeme l t) :
    ∀ c ∈ (l ++ rest).head?, isBlank c = false := by
  intro c member
  cases lexeme with
  | integer some digits =>
    obtain ⟨d, ds, rfl⟩ := List.exists_cons_of_ne_nil some
    obtain rfl := Option.some.inj member
    exact isBlank_of_isDigit (digits d List.mem_cons_self)
  | decimal some digits _ =>
    obtain ⟨d, whole, rfl⟩ := List.exists_cons_of_ne_nil some
    obtain rfl := Option.some.inj member
    exact isBlank_of_isDigit (digits d List.mem_cons_self)
  | name letter _ =>
    obtain rfl := Option.some.inj member
    exact isBlank_of_isLetter letter
  | symbol s =>
    obtain rfl := Option.some.inj member
    exact s.isBlank_char

/-- Only digits and a point prolong a number. -/
theorem Lexeme.prolongs_of_number {value : Double} {c : Char} (lexeme : Lexeme l (.number value))
    (noDigit : c.isDigit = false) (noPoint : (c == '.') = false) : prolongs l c = false := by
  cases lexeme with
  | integer some digits =>
    obtain ⟨d, ds, rfl⟩ := List.exists_cons_of_ne_nil some
    simp [prolongs, digits d List.mem_cons_self, noDigit, noPoint]
  | decimal some digits _ =>
    obtain ⟨d, whole, rfl⟩ := List.exists_cons_of_ne_nil some
    simp [prolongs, digits d List.mem_cons_self, noDigit, noPoint]

/-! ### The scanner takes lexemes -/

theorem scanNumeral_append_of_integer (digits : ∀ c ∈ l, c.isDigit = true)
    (stop : ∀ c ∈ rest.head?, c.isDigit = false ∧ c ≠ '.') :
    scanNumeral (l ++ rest) = (numeralValue l [], rest) := by
  -- No point follows the digits, so the numeral ends with them.
  have digitStop : ∀ c ∈ rest.head?, c.isDigit = false := fun c member => (stop c member).1
  unfold scanNumeral
  rw [takeWhile_append_of_head digits digitStop, dropWhile_append_of_head digits digitStop]
  split
  · exact absurd rfl (stop '.' rfl).2
  · rfl

theorem scanNumeral_append_of_decimal {whole : List Char}
    (wholeDigits : ∀ c ∈ whole, c.isDigit = true)
    (digits : ∀ c ∈ l, c.isDigit = true) (stop : ∀ c ∈ rest.head?, c.isDigit = false) :
    scanNumeral (whole ++ '.' :: (l ++ rest)) = (numeralValue whole l, rest) := by
  have point : ∀ c ∈ ('.' :: (l ++ rest)).head?, c.isDigit = false := by
    rintro _ ⟨⟩
    rfl
  unfold scanNumeral
  rw [takeWhile_append_of_head wholeDigits point, dropWhile_append_of_head wholeDigits point]
  simp only [takeWhile_append_of_head digits stop, dropWhile_append_of_head digits stop]

theorem scanToken_of_isDigit {d : Char} {cs : List Char} {value : Double} (digit : d.isDigit = true)
    (scanned : scanNumeral (d :: cs) = (value, rest)) :
    scanToken (d :: cs) = (.number value, rest) := by
  rw [scanToken, if_pos digit, scanned]

theorem scanToken_of_isLetter {c : Char} {cs : List Char} {name : String}
    (letter : isLetter c = true) (scanned : scanName (c :: cs) = (name, rest)) :
    scanToken (c :: cs) = (.name name, rest) := by
  have noDigit : ¬c.isDigit = true := by simp [isDigit_of_isLetter letter]
  rw [scanToken, if_neg noDigit, if_pos letter, scanned]

theorem scanToken_symbol (s : Symbol) (cs : List Char) :
    scanToken (s.char :: cs) = (.symbol s, cs) := by
  simp [scanToken, s.isDigit_char, s.isLetter_char]

/-- The scanner takes a lexeme that the next character does not prolong. -/
theorem Lexeme.scanToken_append (lexeme : Lexeme l t)
    (stop : ∀ c ∈ rest.head?, prolongs l c = false) : scanToken (l ++ rest) = (t, rest) := by
  cases lexeme with
  | integer some digits =>
    obtain ⟨d, ds, rfl⟩ := List.exists_cons_of_ne_nil some
    have digit := digits d List.mem_cons_self
    have noPoint : '.' ∉ ds := fun member => absurd (digits '.' (.tail d member)) (by decide)
    refine scanToken_of_isDigit digit (scanNumeral_append_of_integer digits fun c member => ?_)
    simpa [prolongs, digit, noPoint] using stop c member
  | decimal some wholeDigits digits =>
    obtain ⟨d, ds, rfl⟩ := List.exists_cons_of_ne_nil some
    have digit := wholeDigits d List.mem_cons_self
    rw [List.append_assoc, List.cons_append]
    refine scanToken_of_isDigit digit
      (scanNumeral_append_of_decimal wholeDigits digits fun c member => ?_)
    have behind := stop c member
    rw [List.cons_append, prolongs, if_pos digit, Bool.or_eq_false_iff] at behind
    exact behind.1
  | @name first chars letter nameChars =>
    have all : ∀ c ∈ first :: chars, isNameChar c = true :=
      List.forall_mem_cons.mpr ⟨isNameChar_of_isLetter letter, nameChars⟩
    have behind : ∀ c ∈ rest.head?, isNameChar c = false := fun c member => by
      simpa [prolongs, isDigit_of_isLetter letter, letter] using stop c member
    refine scanToken_of_isLetter letter ?_
    change scanName ((first :: chars) ++ rest) = _
    rw [scanName, takeWhile_append_of_head all behind, dropWhile_append_of_head all behind]
  | symbol s => exact scanToken_symbol s rest

/-- A lexeme alone is taken whole. -/
theorem Lexeme.scanToken_eq (lexeme : Lexeme l t) : scanToken l = (t, []) := by
  have nothing : ∀ c ∈ ([] : List Char).head?, prolongs l c = false := by simp
  have scanned := lexeme.scanToken_append nothing
  rwa [List.append_nil] at scanned

/-- The numeral that is scanned behind a digit is a lexeme that the next character does not
prolong. -/
theorem exists_lexeme_of_scanNumeral {d : Char} {cs : List Char} (digit : d.isDigit = true) :
    ∃ l, d :: cs = l ++ (scanNumeral (d :: cs)).2 ∧
      Lexeme l (.number (scanNumeral (d :: cs)).1) ∧
      ∀ c ∈ (scanNumeral (d :: cs)).2.head?, prolongs l c = false := by
  have whole : (d :: cs).takeWhile Char.isDigit = d :: cs.takeWhile Char.isDigit :=
    List.takeWhile_cons_of_pos digit
  have wholeDigits : ∀ c ∈ d :: cs.takeWhile Char.isDigit, c.isDigit = true :=
    List.forall_mem_cons.mpr ⟨digit, fun _ => List.mem_takeWhile_imp⟩
  have split := List.takeWhile_append_dropWhile (p := Char.isDigit) (l := d :: cs)
  rw [whole] at split
  unfold scanNumeral
  rw [whole]
  -- With a point behind the digits, the numeral ends where the second run of digits does.
  split
  · next tail point =>
    rw [point] at split
    refine ⟨d :: cs.takeWhile Char.isDigit ++ '.' :: tail.takeWhile Char.isDigit, ?_,
      .decimal (List.cons_ne_nil _ _) wholeDigits fun _ => List.mem_takeWhile_imp, ?_⟩
    · simpa using split.symm
    · intro c member
      simp [prolongs, digit, eq_false_of_mem_head?_dropWhile member]
  · next tail noPoint =>
    refine ⟨d :: cs.takeWhile Char.isDigit, split.symm,
      .integer (List.cons_ne_nil _ _) wholeDigits, ?_⟩
    intro c member
    have notPoint : c ≠ '.' := by
      rintro rfl
      obtain ⟨tail, behind⟩ := List.head?_eq_some_iff.mp (Option.mem_def.mp member)
      exact noPoint tail behind
    simp [prolongs, digit, eq_false_of_mem_head?_dropWhile member, notPoint]

/-- What the scanner takes is a lexeme that the next character does not prolong. -/
theorem exists_lexeme_of_scanToken {cs : List Char} (scanned : scanToken cs = (t, rest))
    (goesOn : t.isStop = false) :
    ∃ l, cs = l ++ rest ∧ Lexeme l t ∧ ∀ c ∈ rest.head?, prolongs l c = false := by
  cases cs with
  | nil =>
    obtain ⟨rfl, _⟩ := Prod.mk.inj scanned
    cases goesOn
  | cons first cs =>
    rw [scanToken] at scanned
    -- The first character decides which kind of token is scanned.
    split at scanned
    · next digit =>
      obtain ⟨rfl, rfl⟩ := Prod.mk.inj scanned
      exact exists_lexeme_of_scanNumeral digit
    · next noDigit =>
      split at scanned
      · next letter =>
        obtain ⟨rfl, rfl⟩ := Prod.mk.inj scanned
        have name : (first :: cs).takeWhile isNameChar = first :: cs.takeWhile isNameChar :=
          List.takeWhile_cons_of_pos (isNameChar_of_isLetter letter)
        have split := List.takeWhile_append_dropWhile (p := isNameChar) (l := first :: cs)
        have lexeme : Lexeme (first :: cs.takeWhile isNameChar)
            (.name (scanName (first :: cs)).1) := by
          unfold scanName
          rw [name]
          exact .name letter fun _ => List.mem_takeWhile_imp
        rw [name] at split
        refine ⟨_, split.symm, lexeme, fun c member => ?_⟩
        rw [prolongs, if_neg noDigit, eq_false_of_mem_head?_dropWhile member, Bool.and_false]
      · next noLetter =>
        split at scanned
        · next s symbol =>
          obtain ⟨rfl, rfl⟩ := Prod.mk.inj scanned
          obtain rfl := Symbol.ofChar?_eq_some_iff.mp symbol
          exact ⟨[s.char], rfl, .symbol s, fun c _ => by
            simp [prolongs, s.isDigit_char, s.isLetter_char]⟩
        · obtain ⟨rfl, _⟩ := Prod.mk.inj scanned
          cases goesOn

/-- No lexeme is read as a stop. -/
theorem Lexeme.isStop_eq_false (lexeme : Lexeme l t) : t.isStop = false := by
  cases lexeme <;> rfl

/-- A text has at most one token. -/
theorem Lexeme.unique {t' : Token} (first : Lexeme l t) (second : Lexeme l t') : t = t' := by
  have scanned := first.scanToken_eq
  rw [second.scanToken_eq] at scanned
  exact (Prod.mk.inj scanned).1.symm

/-! ### Pieces of lexemes -/

/-- A lexeme is prolonged by its own characters. -/
theorem Lexeme.prolongs_of_append {c : Char} (lexeme : Lexeme (l ++ c :: rest) t) (some : l ≠ []) :
    prolongs l c = true := by
  obtain ⟨d, ds, rfl⟩ := List.exists_cons_of_ne_nil some
  -- The text of a lexeme has the form of its kind, which a text that is cut in two has not.
  generalize text : d :: ds ++ c :: rest = cs at lexeme
  cases lexeme with
  | integer _ digits =>
    subst text
    simp [prolongs, digits d (by simp), digits c (by simp)]
  | @decimal whole fraction someWhole wholeDigits digits =>
    obtain ⟨d', whole, rfl⟩ := List.exists_cons_of_ne_nil someWhole
    obtain ⟨rfl, tails⟩ := List.cons.inj text
    have digit := wholeDigits d List.mem_cons_self
    -- The cut is in front of the point, or somewhere behind it.
    rcases List.append_eq_append_iff.mp tails with ⟨more, rfl, behind⟩ | ⟨more, rfl, behind⟩
    · have noPoint : '.' ∉ ds := fun member =>
        absurd (wholeDigits '.' (by simp [member])) (by decide)
      cases more with
      | nil =>
        obtain ⟨rfl, _⟩ := List.cons.inj behind
        simp [prolongs, digit, noPoint]
      | cons c' more =>
        obtain ⟨rfl, _⟩ := List.cons.inj behind
        simp [prolongs, digit, wholeDigits c (by simp)]
    · have noPoint : '.' ∉ whole := fun member =>
        absurd (wholeDigits '.' (.tail d member)) (by decide)
      cases more with
      | nil =>
        obtain ⟨rfl, _⟩ := List.cons.inj behind
        simp [prolongs, digit, noPoint]
      | cons c' more =>
        obtain ⟨_, rfl⟩ := List.cons.inj behind
        simp [prolongs, digit, digits c (by simp)]
  | @name first chars letter nameChars =>
    obtain ⟨rfl, rfl⟩ := List.cons.inj text
    simp [prolongs, isDigit_of_isLetter letter, letter, nameChars c (by simp)]
  | symbol s => simp at text

end Lexemes

end Formula
