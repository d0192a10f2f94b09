import Formula.Proofs.Lexing.Decomposition

/-!
# Where a reader can stand

A reader stands at a boundary of its text, between two characters or at one of its ends. It can be
sent to any boundary, and is sent to the end by any other offset. From where it stands it reads what
a reader of nothing but the rest of the text reads.

## Main definitions

* `IsBoundary` — does a character end, or the text begin, at the byte offset?
* `splitBytes?` — a text cut in two at a boundary
* `Reader.readings` — the next tokens, and where the reader stands behind each of them
* `Reader.rest` — the reader of what has not been read

## Main results

* `Reader.offset_seek` — where a reader stands that is sent somewhere
* `Reader.readings_eq` — what is read does not depend on what comes before
-/

namespace Formula

/-- Does the front of the text with this number of bytes end with a whole character, or have none? -/
def IsBoundary (text : List Char) (n : Nat) : Prop :=
  ∃ front back, text = front ++ back ∧ utf8Length front = n

/-- The text cut in two at a byte offset, if that is a boundary. -/
def splitBytes? : Nat → List Char → Option (List Char × List Char)
  | 0, cs => some ([], cs)
  | _ + 1, [] => none
  | n + 1, c :: cs =>
    if c.utf8Size ≤ n + 1 then
      (splitBytes? (n + 1 - c.utf8Size) cs).map fun (front, back) => (c :: front, back)
    else none

section Boundaries

variable {text front back : List Char} {n : Nat}

theorem splitBytes?_append (front back : List Char) :
    splitBytes? (utf8Length front) (front ++ back) = some (front, back) := by
  induction front with
  | nil => simp [splitBytes?]
  | cons c front ih =>
    obtain ⟨k, size⟩ := Nat.exists_eq_succ_of_ne_zero (Nat.pos_iff_ne_zero.mp c.utf8Size_pos)
    have length : utf8Length (c :: front) = k + utf8Length front + 1 := by
      rw [utf8Length_cons, size]
      omega
    have behind : k + utf8Length front + 1 - c.utf8Size = utf8Length front := by omega
    rw [length, List.cons_append, splitBytes?, if_pos (by omega), behind, ih]
    rfl

theorem splitBytes?_eq_some_iff :
    splitBytes? n text = some (front, back) ↔ text = front ++ back ∧ utf8Length front = n := by
  constructor
  · intro split
    induction text generalizing n front with
    | nil =>
      cases n with
      | zero =>
        obtain ⟨rfl, rfl⟩ := Prod.mk.inj (Option.some.inj split)
        exact ⟨rfl, rfl⟩
      | succ n => cases split
    | cons c cs ih =>
      cases n with
      | zero =>
        obtain ⟨rfl, rfl⟩ := Prod.mk.inj (Option.some.inj split)
        exact ⟨rfl, rfl⟩
      | succ n =>
        rw [splitBytes?] at split
        split at split
        · next fits =>
          obtain ⟨⟨front', back'⟩, inner, pieces⟩ := Option.map_eq_some_iff.mp split
          obtain ⟨rfl, rfl⟩ := Prod.mk.inj pieces
          obtain ⟨rfl, length⟩ := ih inner
          refine ⟨rfl, ?_⟩
          rw [utf8Length_cons, length]
          omega
        · cases split
  · rintro ⟨rfl, rfl⟩
    exact splitBytes?_append front back

/-- A text can be cut at its boundaries. -/
theorem isSome_splitBytes?_iff : (splitBytes? n text).isSome = true ↔ IsBoundary text n := by
  simp [Option.isSome_iff_exists, splitBytes?_eq_some_iff, IsBoundary]

instance (text : List Char) (n : Nat) : Decidable (IsBoundary text n) :=
  decidable_of_iff _ isSome_splitBytes?_iff

/-- The end of a text is a boundary. -/
theorem isBoundary_utf8Length (text : List Char) : IsBoundary text (utf8Length text) :=
  ⟨text, [], (List.append_nil text).symm, rfl⟩

/-- Where a text cannot be cut, nothing of it is left. -/
theorem dropBytes_eq (n : Nat) (text : List Char) :
    dropBytes n text = ((splitBytes? n text).map Prod.snd).getD [] := by
  induction text generalizing n with
  | nil => cases n <;> rfl
  | cons c cs ih =>
    cases n with
    | zero => rfl
    | succ n =>
      rw [dropBytes, splitBytes?]
      split
      · rw [ih, Option.map_map]
        rfl
      · rfl

theorem dropBytes_of_not_isBoundary (off : ¬IsBoundary text n) : dropBytes n text = [] := by
  rw [← isSome_splitBytes?_iff, Option.not_isSome_iff_eq_none] at off
  rw [dropBytes_eq, off]
  rfl

end Boundaries

namespace Reader

/-- The reader of nothing but what has not been read. -/
def rest (r : Reader) : Reader := ofString (String.ofList r.unread)

/-- The next tokens, as many as asked for, each with where the reader stands behind it. -/
def readings (r : Reader) : Nat → List (Token × Nat)
  | 0 => []
  | n + 1 => (r.next.1, r.next.2.offset) :: r.next.2.readings n

section Readers

variable {r s : Reader} {n shift : Nat}

/-- What has been read ends where the reader stands. -/
theorem exists_front (r : Reader) :
    ∃ front, r.text = front ++ r.unread ∧ utf8Length front = r.offset := by
  obtain ⟨text, unread, front, rfl⟩ := r
  exact ⟨front, rfl, by simp [offset]⟩

theorem offset_add_utf8Length_unread (r : Reader) :
    r.offset + utf8Length r.unread = utf8Length r.text := by
  obtain ⟨front, text, length⟩ := r.exists_front
  rw [text, utf8Length_append, length]

/-- A reader stands where it is sent if that is a boundary, and otherwise at the end. -/
theorem offset_seek (r : Reader) (n : Nat) :
    (r.seek n).offset = if IsBoundary r.text n then n else utf8Length r.text := by
  split
  · next boundary =>
    obtain ⟨front, back, text, rfl⟩ := boundary
    have unread : (r.seek (utf8Length front)).unread = back := by
      change dropBytes (utf8Length front) r.text = back
      rw [text, dropBytes_utf8Length_append]
    rw [offset, unread, text_seek, text, utf8Length_append]
    omega
  · next off =>
    have unread : (r.seek n).unread = [] := dropBytes_of_not_isBoundary off
    rw [offset, unread, text_seek]
    rfl

/-- A reader stands where it is sent only if that is a boundary. -/
theorem offset_seek_eq_iff : (r.seek n).offset = n ↔ IsBoundary r.text n := by
  rw [offset_seek]
  split
  · next boundary => simp [boundary]
  · next off =>
    refine iff_of_false ?_ off
    rintro rfl
    exact off (isBoundary_utf8Length r.text)

/-- Readers that have the same in front of them read the same, and keep their distance. -/
theorem readings_eq_of_unread (same : r.unread = s.unread) (apart : r.offset = shift + s.offset)
    (n : Nat) :
    r.readings n = (s.readings n).map fun (token, position) => (token, shift + position) := by
  induction n generalizing r s with
  | zero => rfl
  | succ n ih =>
    have token : r.next.1 = s.next.1 := by simp only [next, same]
    have unread : r.next.2.unread = s.next.2.unread := by simp only [next, same]
    have apart' : r.next.2.offset = shift + s.next.2.offset := by
      -- All four offsets are what is missing of one of two lengths.
      have before := r.offset_add_utf8Length_unread
      have before' := s.offset_add_utf8Length_unread
      have behind := r.next.2.offset_add_utf8Length_unread
      have behind' := s.next.2.offset_add_utf8Length_unread
      rw [text_next] at behind behind'
      rw [same] at before
      rw [unread] at behind
      omega
    rw [readings, readings, List.map_cons, ih unread apart', token, apart']

/-- A reader reads what a reader of the rest of the text reads, as much further on as it stands. -/
theorem readings_eq (r : Reader) (n : Nat) :
    r.readings n =
      (r.rest.readings n).map fun (token, position) => (token, r.offset + position) :=
  readings_eq_of_unread (by simp [rest, ofString]) (by simp [rest, ofString, offset]) n

/-- All that is left to read are the tokens of the rest of the text. -/
theorem tokens_rest (r : Reader) : r.rest.tokens = r.tokens :=
  tokens_eq_of_unread (by simp [rest, ofString])

end Readers

end Reader

end Formula
