/-!
# Bytes of text

Positions in a text are counted in bytes of its UTF-8 encoding, and lines arrive as bytes.

## Main definitions

* `utf8Length` — how many bytes a text takes
* `dropBytes` — the text from a byte offset on
* `utf8Encode`, `utf8Decode?` — between text and bytes

## Main results

* `dropBytes_utf8Length_append` — after the bytes of a first part comes the second part
* `utf8Decode?_utf8Encode` — encoded text decodes to itself
-/

namespace Formula

/-- The number of bytes in the encoding of a text. -/
def utf8Length (cs : List Char) : Nat := cs.foldl (fun n c => n + c.utf8Size) 0

private theorem foldl_utf8Size (cs : List Char) (n : Nat) :
    cs.foldl (fun n c => n + c.utf8Size) n = n + utf8Length cs := by
  induction cs generalizing n with
  | nil => simp [utf8Length]
  | cons c cs ih =>
    simp only [utf8Length, List.foldl_cons]
    rw [ih, ih (0 + c.utf8Size)]
    omega

@[simp] theorem utf8Length_nil : utf8Length [] = 0 := rfl

@[simp] theorem utf8Length_cons (c : Char) (cs : List Char) :
    utf8Length (c :: cs) = c.utf8Size + utf8Length cs := by
  rw [utf8Length, List.foldl_cons, foldl_utf8Size]
  omega

@[simp] theorem utf8Length_append (cs ds : List Char) :
    utf8Length (cs ++ ds) = utf8Length cs + utf8Length ds := by
  induction cs with
  | nil => simp
  | cons c cs ih => simp [ih, Nat.add_assoc]

/-- The text from byte offset `n` on. An offset past the end, or inside the encoding of a
character, counts as the end of the text. -/
def dropBytes : Nat → List Char → List Char
  | 0, cs => cs
  | _ + 1, [] => []
  | n + 1, c :: cs => if c.utf8Size ≤ n + 1 then dropBytes (n + 1 - c.utf8Size) cs else []

@[simp] theorem dropBytes_zero (cs : List Char) : dropBytes 0 cs = cs := by
  cases cs <;> rfl

theorem dropBytes_suffix (n : Nat) (cs : List Char) : dropBytes n cs <:+ cs := by
  induction cs generalizing n with
  | nil => cases n <;> exact List.suffix_rfl
  | cons c cs ih =>
    cases n with
    | zero => exact List.suffix_rfl
    | succ n =>
      rw [dropBytes]
      split
      · exact (ih _).trans (List.suffix_cons c cs)
      · exact List.nil_suffix

/-- After the bytes of a first part comes the second part. -/
theorem dropBytes_utf8Length_append (cs ds : List Char) :
    dropBytes (utf8Length cs) (cs ++ ds) = ds := by
  induction cs with
  | nil => simp
  | cons c cs ih =>
    obtain ⟨n, hn⟩ := Nat.exists_eq_succ_of_ne_zero (Nat.pos_iff_ne_zero.mp c.utf8Size_pos)
    rw [utf8Length_cons, List.cons_append, show c.utf8Size + utf8Length cs
      = (n + utf8Length cs) + 1 by omega, dropBytes, if_pos (by omega),
      show n + utf8Length cs + 1 - c.utf8Size = utf8Length cs by omega, ih]

/-- The bytes of a text. -/
def utf8Encode (text : String) : List UInt8 := text.toList.flatMap String.utf8EncodeChar

/-- The text with the given bytes, if they are the encoding of one. -/
def utf8Decode? (bytes : List UInt8) : Option String := String.fromUTF8? bytes.toByteArray

/-- Encoded text decodes to itself. -/
theorem utf8Decode?_utf8Encode (text : String) : utf8Decode? (utf8Encode text) = some text := by
  have h : (utf8Encode text).toByteArray = text.toByteArray := by
    rw [utf8Encode, ← List.utf8Encode, ← String.toByteArray_ofList, String.ofList_toList]
  rw [utf8Decode?, h]
  simp [String.fromUTF8?, String.fromUTF8, text.isValidUTF8]

end Formula
