import Formula.Text.Utf8
import Formula.Token.Scan

/-!
# Readers

A reader is a text with a place in it from which the next token is read. The place is always
between two characters: the unread text is an end piece of the whole text by construction, and its
offset is counted in bytes.

## Main definitions

* `Reader` — a text and what of it is unread
* `Reader.next` — the next token
* `Reader.offset`, `Reader.seek` — where the reader stands, and moving it elsewhere

## Main results

* `Reader.seek_offset` — going to where the reader stands changes nothing
-/

namespace Formula

/-- A text that is read token by token. -/
structure Reader where
  /-- The whole text. -/
  text : List Char
  /-- What has not been read. -/
  unread : List Char
  /-- The unread text is an end piece of the whole text. -/
  unread_suffix : unread <:+ text

namespace Reader

/-- The reader at the start of a text. -/
def ofString (text : String) : Reader := ⟨text.toList, text.toList, List.suffix_rfl⟩

/-- The byte offset of the unread text. -/
def offset (r : Reader) : Nat := utf8Length r.text - utf8Length r.unread

/-- The next token, and the reader behind it. -/
def next (r : Reader) : Token × Reader :=
  ((scan r.unread).1, ⟨r.text, (scan r.unread).2, (scan_suffix r.unread).trans r.unread_suffix⟩)

/-- The same text read from a byte offset on. An offset past the end, or inside a character, counts
as the end of the text. -/
def seek (r : Reader) (offset : Nat) : Reader :=
  ⟨r.text, dropBytes offset r.text, dropBytes_suffix offset r.text⟩

@[simp] theorem text_ofString (text : String) : (ofString text).text = text.toList := rfl

@[simp] theorem text_next (r : Reader) : r.next.2.text = r.text := rfl

@[simp] theorem text_seek (r : Reader) (offset : Nat) : (r.seek offset).text = r.text := rfl

/-- The unread text is what lies beyond the offset. -/
theorem dropBytes_offset (r : Reader) : dropBytes r.offset r.text = r.unread := by
  obtain ⟨text, unread, done, rfl⟩ := r
  simp only [offset, utf8Length_append, Nat.add_sub_cancel]
  exact dropBytes_utf8Length_append done unread

/-- Two readers of one text that stand at the same offset are the same. -/
theorem ext_offset {r s : Reader} (ht : r.text = s.text) (ho : r.offset = s.offset) : r = s := by
  have h : r.unread = s.unread := by rw [← r.dropBytes_offset, ← s.dropBytes_offset, ht, ho]
  obtain ⟨text, unread, _⟩ := r
  obtain ⟨text', unread', _⟩ := s
  simp_all

/-- Going to where a reader of the text stands gives that reader. -/
theorem seek_offset {r s : Reader} (ht : r.text = s.text) : r.seek s.offset = s := by
  obtain ⟨text, unread, _⟩ := r
  obtain ⟨text', unread', h'⟩ := s
  cases ht
  simp only [seek, mk.injEq, true_and]
  exact dropBytes_offset ⟨text, unread', h'⟩

end Reader

end Formula
