import Formula.Proofs.Reader.Boundaries

/-!
# Cursors

A cursor is a place in a text as a machine keeps it. Offsets are words of 32 bits, and nothing is
taken for granted: a length may not fit into a word, a difference may be negative, a slice may begin
behind its end or inside a character, and what is called a numeral may be none. On a text that is
short enough a cursor behaves like a reader, and none of that happens.

## Main definitions

* `Cursor` — a text, and what is said to be unread of it
* `Cursor.offset?`, `Cursor.slice?`, `Cursor.next?` — what can fail
* `Cursor.reset` — moving the cursor
* `Reader.cursor` — a reader as a cursor

## Main results

* `Reader.offset?_cursor`, `Reader.next?_cursor` — nothing fails for a reader of a short text
* `Reader.reset_cursor` — and it moves as its cursor does
-/

namespace Formula

/-- A text, and what is unread of it. The two need not have anything to do with each other. -/
structure Cursor where
  text : List Char
  unread : List Char
deriving DecidableEq, Repr

/-- The length of a text, if it fits into a word. -/
def wordLength? (cs : List Char) : Option UInt32 :=
  if utf8Length cs < 2 ^ 32 then some (.ofNat (utf8Length cs)) else none

/-- The value of a text that is a numeral as a whole: digits, at least one of them, and at most one
point anywhere among them. -/
def numeral? (cs : List Char) : Option Double :=
  let whole := cs.takeWhile (· != '.')
  let fraction := (cs.dropWhile (· != '.')).tail
  if whole ++ fraction ≠ [] ∧ (whole ++ fraction).all Char.isDigit then
    some (numeralValue whole fraction)
  else none

/-- What follows a numeral of which some digits, and maybe the point, have been taken. -/
def afterNumeral (point : Bool) : List Char → List Char
  | [] => []
  | c :: cs =>
    if c.isDigit then afterNumeral point cs
    else if c = '.' ∧ point = false then afterNumeral true cs
    else c :: cs

namespace Cursor

/-- Where the cursor stands, if both lengths fit into words and the unread text is no longer than
the whole one. -/
def offset? (c : Cursor) : Option UInt32 := do
  let whole ← wordLength? c.text
  let left ← wordLength? c.unread
  if left ≤ whole then some (whole - left) else none

/-- The cursor at another offset of its text, or at the end where the text cannot be cut. -/
def reset (c : Cursor) (offset : UInt32) : Cursor :=
  { c with unread := ((splitBytes? offset.toNat c.text).map Prod.snd).getD [] }

/-- The text from an offset to where the cursor stands, if the one is not behind the other and both
are boundaries. -/
def slice? (c : Cursor) (start : UInt32) : Option (List Char) := do
  let stop ← c.offset?
  if start ≤ stop then
    let (front, _) ← splitBytes? stop.toNat c.text
    let (_, slice) ← splitBytes? start.toNat front
    some slice
  else none

/-- The next token, and the cursor behind it. Where a numeral has no value, the cursor goes back to
its start. -/
def next? (c : Cursor) : Option (Token × Cursor) :=
  let c := { c with unread := c.unread.dropWhile isBlank }
  match c.unread with
  | [] => some (.endOfText, c)
  | first :: rest => do
    let start ← c.offset?
    if first.isDigit then
      let stop : Cursor := { c with unread := afterNumeral false rest }
      match numeral? (← stop.slice? start) with
      | some value => return (.number value, stop)
      | none => return (.unreadable, stop.reset start)
    else if isLetter first then
      let stop : Cursor := { c with unread := rest.dropWhile isNameChar }
      return (.name (String.ofList (← stop.slice? start)), stop)
    else
      match Symbol.ofChar? first with
      | some s => return (.symbol s, { c with unread := rest })
      | none => return (.unreadable, c)

end Cursor

/-- The reader without the knowledge that what is unread is an end piece of the text. -/
def Reader.cursor (r : Reader) : Cursor := ⟨r.text, r.unread⟩

/-! ### Numerals -/

section Numerals

variable {c : Char} {cs rest : List Char} {value : Double}

theorem afterNumeral_true (cs : List Char) : afterNumeral true cs = cs.dropWhile Char.isDigit := by
  induction cs with
  | nil => rfl
  | cons c cs ih => by_cases digit : c.isDigit <;> simp [afterNumeral, digit, ih]

/-- The first digits of a numeral do not decide what follows it. -/
theorem scanNumeral_snd_cons (digit : c.isDigit = true) (cs : List Char) :
    (scanNumeral (c :: cs)).2 = (scanNumeral cs).2 := by
  rw [scanNumeral, scanNumeral, List.dropWhile_cons_of_pos digit]
  split <;> rfl

theorem afterNumeral_false (cs : List Char) : afterNumeral false cs = (scanNumeral cs).2 := by
  induction cs with
  | nil => rfl
  | cons c cs ih =>
    by_cases digit : c.isDigit
    · rw [afterNumeral, if_pos digit, ih, scanNumeral_snd_cons digit]
    · rw [afterNumeral, if_neg digit, scanNumeral, List.dropWhile_cons_of_neg digit]
      -- Without a digit at the front there is a point, or the numeral has ended.
      split
      · next point =>
        obtain ⟨rfl, -⟩ := point
        exact afterNumeral_true cs
      · split
        · next rest same =>
          obtain ⟨rfl, rfl⟩ := List.cons.inj same
          simp_all
        · rfl

/-- The lexemes of numbers are numerals with the same values. -/
theorem Lexeme.numeral?_eq {l : List Char} (lexeme : Lexeme l (.number value)) :
    numeral? l = some value := by
  have notPoint {c : Char} (digit : c.isDigit = true) : (c != '.') = true := by
    rw [bne_iff_ne]
    rintro rfl
    exact absurd digit (by decide)
  cases lexeme with
  | integer nonempty digits =>
    have whole := List.takeWhile_eq_self_iff.mpr fun c inDigits => notPoint (digits c inDigits)
    have nothing := List.dropWhile_eq_nil_iff.mpr fun c inDigits => notPoint (digits c inDigits)
    simp only [numeral?, whole, nothing]
    simpa [nonempty] using digits
  | @decimal whole fraction nonempty wholeDigits digits =>
    have noPoint : ∀ c ∈ whole, (c != '.') = true := fun c inWhole => notPoint (wholeDigits c inWhole)
    have point : ∀ c ∈ ('.' :: fraction).head?, (c != '.') = false := by simp
    have front := takeWhile_append_of_head noPoint point
    have behind := dropWhile_append_of_head noPoint point
    simp only [numeral?, front, behind]
    simpa [nonempty] using ⟨wholeDigits, digits⟩

end Numerals

/-! ### Cursors of short texts -/

section Cursors

variable {front mid back : List Char}

theorem toNat_ofNat_utf8Length {cs : List Char} (short : utf8Length cs < 2 ^ 32) :
    (UInt32.ofNat (utf8Length cs)).toNat = utf8Length cs :=
  UInt32.toNat_ofNat_of_lt' short

/-- A cursor in a short text stands behind the front of the text. -/
theorem Cursor.offset?_append (short : utf8Length (front ++ back) < 2 ^ 32) :
    (Cursor.mk (front ++ back) back).offset? = some (.ofNat (utf8Length front)) := by
  have whole : wordLength? (front ++ back) = some (.ofNat (utf8Length (front ++ back))) :=
    if_pos short
  have whole_toNat := toNat_ofNat_utf8Length short
  rw [utf8Length_append] at short
  have left : wordLength? back = some (.ofNat (utf8Length back)) := if_pos (by omega)
  have left_toNat := toNat_ofNat_utf8Length (show utf8Length back < 2 ^ 32 by omega)
  have inOrder : UInt32.ofNat (utf8Length back) ≤ .ofNat (utf8Length (front ++ back)) := by
    rw [UInt32.le_iff_toNat_le, left_toNat, whole_toNat, utf8Length_append]
    omega
  have difference : UInt32.ofNat (utf8Length (front ++ back)) - .ofNat (utf8Length back) =
      .ofNat (utf8Length front) := by
    rw [utf8Length_append, UInt32.ofNat_add, UInt32.add_sub_cancel]
  rw [offset?, whole, left]
  simp only [Option.bind_eq_bind, Option.bind_some, if_pos inOrder, difference]

/-- Nothing fails when a short text is sliced between two boundaries. -/
theorem Cursor.slice?_append (short : utf8Length (front ++ (mid ++ back)) < 2 ^ 32) :
    (Cursor.mk (front ++ (mid ++ back)) back).slice? (.ofNat (utf8Length front)) = some mid := by
  have lengths : utf8Length front + (utf8Length mid + utf8Length back) < 2 ^ 32 := by
    simpa using short
  rw [← List.append_assoc] at short ⊢
  have start : (UInt32.ofNat (utf8Length front)).toNat = utf8Length front :=
    toNat_ofNat_utf8Length (by omega)
  have stop : (UInt32.ofNat (utf8Length (front ++ mid))).toNat = utf8Length (front ++ mid) :=
    toNat_ofNat_utf8Length (by rw [utf8Length_append]; omega)
  have inOrder : UInt32.ofNat (utf8Length front) ≤ UInt32.ofNat (utf8Length (front ++ mid)) := by
    rw [UInt32.le_iff_toNat_le, start, stop, utf8Length_append]
    omega
  rw [slice?, offset?_append short]
  simp only [Option.bind_eq_bind, Option.bind_some, if_pos inOrder, start, stop,
    splitBytes?_append]

/-- In a short text no slice of a token fails, and no numeral is without a value. -/
theorem Cursor.next?_append (short : utf8Length (front ++ back) < 2 ^ 32) :
    (Cursor.mk (front ++ back) back).next? =
      some ((scan back).1, ⟨front ++ back, (scan back).2⟩) := by
  cases pieces : back.dropWhile isBlank with
  | nil => simp [next?, scan, pieces, scanToken]
  | cons first rest =>
    have text : front ++ back = front ++ back.takeWhile isBlank ++ first :: rest := by
      rw [← pieces, List.append_assoc, List.takeWhile_append_dropWhile]
    simp only [next?, scan, pieces, scanToken]
    rw [text] at short ⊢
    generalize front ++ back.takeWhile isBlank = taken at short ⊢
    simp only [offset?_append short, Option.bind_eq_bind, Option.bind_some]
    by_cases digit : first.isDigit
    · obtain ⟨l, numeral, lexeme, -⟩ := @exists_lexeme_of_scanNumeral first rest digit
      rw [numeral] at short
      have slice := slice?_append short
      rw [← numeral] at slice
      have behind : afterNumeral false rest = (scanNumeral (first :: rest)).2 := by
        rw [afterNumeral_false, scanNumeral_snd_cons digit]
      simp only [digit, if_true, behind, slice, Option.bind_some, lexeme.numeral?_eq]
      rfl
    · by_cases letter : isLetter first
      · have nameChar := isNameChar_of_isLetter letter
        have name : first :: rest =
            first :: rest.takeWhile isNameChar ++ rest.dropWhile isNameChar := by
          rw [List.cons_append, List.takeWhile_append_dropWhile]
        rw [name] at short
        have slice := slice?_append short
        rw [← name] at slice
        simp only [digit, letter, if_true, if_false, Bool.false_eq_true, slice, Option.bind_some,
          scanName, List.takeWhile_cons_of_pos nameChar, List.dropWhile_cons_of_pos nameChar]
        rfl
      · simp only [digit, letter, if_false, Bool.false_eq_true]
        cases Symbol.ofChar? first <;> rfl

end Cursors

namespace Reader

variable {r : Reader}

/-- For a reader of a short text both lengths fit into words, and their difference is no less than
zero: it is where the reader stands. -/
theorem offset?_cursor (short : utf8Length r.text < 2 ^ 32) :
    r.cursor.offset?.map UInt32.toNat = some r.offset := by
  obtain ⟨text, unread, front, rfl⟩ := r
  have whole : utf8Length (front ++ unread) < 2 ^ 32 := short
  have length : utf8Length front < 2 ^ 32 := by
    rw [utf8Length_append] at whole
    omega
  simp [cursor, Cursor.offset?_append whole, toNat_ofNat_utf8Length length, offset]

/-- A cursor moves as the reader does. -/
theorem reset_cursor (r : Reader) (offset : UInt32) :
    r.cursor.reset offset = (r.seek offset.toNat).cursor := by
  simp [Cursor.reset, cursor, seek, dropBytes_eq]

/-- A cursor reads what the reader of a short text reads. All its slices are cut at boundaries, and
all numerals have values. -/
theorem next?_cursor (short : utf8Length r.text < 2 ^ 32) :
    r.cursor.next? = some (r.next.1, r.next.2.cursor) := by
  obtain ⟨text, unread, front, rfl⟩ := r
  exact Cursor.next?_append short

end Reader

end Formula
