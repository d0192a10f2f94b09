import Formula.Double.Rounding
import Formula.Text.Letter
import Formula.Text.Numeric
import Formula.Token.Basic

/-!
# Reading one token

Blanks are skipped first. A digit then begins a numeral, a letter a name, and a symbol is one
character long; numerals and names reach as far as they can. At any other character, and at the
end of the text, reading stops and nothing but the blanks is consumed.

## Main definitions

* `scanNumeral` — the numeral at the front of a text
* `scanName` — the name at the front of a text
* `scan` — the next token of a text, and what follows it

## Main results

* `scan_suffix` — what follows is an end piece of the text
* `length_scan_lt` — every token but the two stops consumes something
-/

namespace Formula

/-- The characters between tokens that have no meaning. -/
def isBlank (c : Char) : Bool := c == ' ' || c == '\t' || c == '\n'

/-- Can the character stand in a name after its first letter? -/
def isNameChar (c : Char) : Bool := isLetter c || isNumeric c || c == '_'

/-- The double nearest to the numeral with the given digits before and after the point. -/
def numeralValue (whole fraction : List Char) : Double :=
  .ofRatio (Nat.ofDigitChars 10 (whole ++ fraction) 0) (10 ^ fraction.length)

/-- The value of the numeral at the front of `cs`, and what follows it. A numeral is a run of
digits, then at most one point with another run of digits, which may be empty. -/
def scanNumeral (cs : List Char) : Double × List Char :=
  let whole := cs.takeWhile Char.isDigit
  match cs.dropWhile Char.isDigit with
  | '.' :: rest =>
    (numeralValue whole (rest.takeWhile Char.isDigit), rest.dropWhile Char.isDigit)
  | rest => (numeralValue whole [], rest)

/-- The name at the front of `cs`, and what follows it. -/
def scanName (cs : List Char) : String × List Char :=
  (String.ofList (cs.takeWhile isNameChar), cs.dropWhile isNameChar)

/-- The token at the front of a text that begins with no blank, and what follows it. -/
def scanToken : List Char → Token × List Char
  | [] => (.endOfText, [])
  | c :: cs =>
    if c.isDigit then
      let (value, rest) := scanNumeral (c :: cs)
      (.number value, rest)
    else if isLetter c then
      let (name, rest) := scanName (c :: cs)
      (.name name, rest)
    else
      match Symbol.ofChar? c with
      | some s => (.symbol s, cs)
      | none => (.unreadable, c :: cs)

/-- The next token of a text, and what follows it. -/
def scan (cs : List Char) : Token × List Char := scanToken (cs.dropWhile isBlank)

theorem scanNumeral_suffix (cs : List Char) : (scanNumeral cs).2 <:+ cs.dropWhile Char.isDigit := by
  unfold scanNumeral
  split
  · next rest h =>
    rw [h]
    exact (List.dropWhile_suffix _).trans (List.suffix_cons '.' rest)
  · exact List.suffix_rfl

theorem scanToken_suffix (cs : List Char) : (scanToken cs).2 <:+ cs := by
  unfold scanToken
  split
  · exact List.suffix_rfl
  · split
    · exact (scanNumeral_suffix _).trans (List.dropWhile_suffix _)
    · split
      · exact List.dropWhile_suffix _
      · split
        · exact List.suffix_cons _ _
        · exact List.suffix_rfl

/-- What follows a token is an end piece of the text. -/
theorem scan_suffix (cs : List Char) : (scan cs).2 <:+ cs :=
  (scanToken_suffix _).trans (List.dropWhile_suffix _)

private theorem length_dropWhile_cons_lt {p : Char → Bool} {c : Char} (h : p c = true)
    (cs : List Char) : ((c :: cs).dropWhile p).length < (c :: cs).length := by
  rw [List.dropWhile_cons, if_pos h, List.length_cons]
  exact Nat.lt_succ_of_le (List.dropWhile_suffix p).length_le

theorem isNameChar_of_isLetter {c : Char} (h : isLetter c = true) : isNameChar c = true := by
  simp [isNameChar, h]

theorem length_scanToken_lt {cs : List Char} (h : (scanToken cs).1.isStop = false) :
    (scanToken cs).2.length < cs.length := by
  unfold scanToken at h ⊢
  split at h
  · simp [Token.isStop] at h
  · next c cs =>
    by_cases hd : c.isDigit
    · simp only [hd, if_true]
      exact Nat.lt_of_le_of_lt (scanNumeral_suffix _).length_le (length_dropWhile_cons_lt hd cs)
    · by_cases hl : isLetter c
      · simp only [hd, hl, if_true, Bool.false_eq_true, if_false]
        exact length_dropWhile_cons_lt (isNameChar_of_isLetter hl) cs
      · cases hs : Symbol.ofChar? c <;> simp_all [Token.isStop]

/-- Every token but the two stops consumes something. -/
theorem length_scan_lt {cs : List Char} (h : (scan cs).1.isStop = false) :
    (scan cs).2.length < cs.length :=
  Nat.lt_of_lt_of_le (length_scanToken_lt h) (List.dropWhile_suffix isBlank).length_le

end Formula
